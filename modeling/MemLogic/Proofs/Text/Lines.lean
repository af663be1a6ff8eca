import MemLogic.Text
import Mathlib.Data.List.Basic

/-! Lines of texts: what is left of the lines that were printed where the text is cut at its line
breaks again. -/

namespace MemLogic.Text
variable {ls : List Text}

theorem lines_cons (l : Text) (ls : List Text) : lines (l :: ls) = l ++ '\n' :: lines ls := by
  simp [lines]

theorem intercalate_append_newline (nonempty : ls ≠ []) :
    List.intercalate ['\n'] ls ++ ['\n'] = lines ls := by
  induction ls with
  | nil => exact absurd rfl nonempty
  | cons l ls ih => cases ls with
    | nil => simp [lines]
    | cons next ls =>
      rw [List.intercalate_cons_cons, List.append_assoc, ih (List.cons_ne_nil _ _)]
      rfl

/-- An entry that has line breaks within it is several lines, and behind the last break nothing is
left. -/
theorem splitOn_lines (ls : List Text) :
    (lines ls).splitOn '\n' = ls.flatMap (·.splitOn '\n') ++ [[]] := by
  induction ls with
  | nil => rfl
  | cons l ls ih =>
    rw [lines_cons, List.splitOn, List.splitOnP_append_cons _ _ (by simp), List.flatMap_cons,
      List.append_assoc, ← ih]
    rfl

theorem splitOn_lines_of_unbroken (h : ∀ l ∈ ls, '\n' ∉ l) :
    (lines ls).splitOn '\n' = ls ++ [[]] := by
  have whole : ls.flatMap (·.splitOn '\n') = ls := by
    rw [List.flatMap_congr fun l member => List.splitOn_eq_singleton (h l member),
      List.flatMap_singleton']
  rw [splitOn_lines, whole]

end MemLogic.Text
