import MemLogic.Text
import Mathlib.Data.List.Basic

/-! Occurrences of a word in a text, and asterisks that never stand side by side. -/

namespace MemLogic.Text

/-- Counts a word from the left, passing over the first `skip` characters: one that was found is
passed over as a whole, so that no two of those counted overlap. -/
def occurrencesFrom (word : Text) : Nat → Text → Nat
  | _, [] => 0
  | skip + 1, _ :: t => occurrencesFrom word skip t
  | 0, c :: t =>
    if word.isPrefixOf (c :: t) then occurrencesFrom word (word.length - 1) t + 1
    else occurrencesFrom word 0 t

/-- How often a word that is not empty occurs without overlaps. -/
def occurrences (word t : Text) : Nat :=
  occurrencesFrom word 0 t

variable {c : Char} {w x y : Text}

theorem occurrencesFrom_length (w x y : Text) :
    occurrencesFrom w x.length (x ++ y) = occurrences w y := by
  induction x with
  | nil => rfl
  | cons d x ih => rw [List.length_cons, List.cons_append, occurrencesFrom, ih]

theorem occurrences_word_append (c : Char) (w y : Text) :
    occurrences (c :: w) (c :: w ++ y) = occurrences (c :: w) y + 1 := by
  have found : (c :: w).isPrefixOf (c :: (w ++ y)) = true :=
    List.isPrefixOf_iff_prefix.mpr (List.prefix_append _ _)
  rw [occurrences, List.cons_append, occurrencesFrom, if_pos found, List.length_cons,
    Nat.add_sub_cancel, occurrencesFrom_length]

/-- No word begins where its first character does not occur. -/
theorem occurrences_append (h : c ∉ x) :
    occurrences (c :: w) (x ++ y) = occurrences (c :: w) y := by
  induction x with
  | nil => rfl
  | cons d x ih =>
    obtain ⟨other, rest⟩ := List.ne_and_not_mem_of_not_mem_cons h
    have missed : ¬ (c :: w).isPrefixOf (d :: (x ++ y)) = true := by
      rw [List.isPrefixOf_iff_prefix]
      rintro ⟨r, same⟩
      exact other (List.cons.inj same).1
    rw [List.cons_append, occurrences, occurrencesFrom, if_neg missed]
    exact ih rest

/-- A space follows each asterisk. -/
def StarsSpaced (t : Text) : Prop :=
  ∀ x y, t = x ++ '*' :: y → y.head? = some ' '

theorem starsSpaced_of_not_mem (h : '*' ∉ x) : StarsSpaced x := by
  rintro u v rfl
  exact absurd (List.mem_append_right u List.mem_cons_self) h

theorem starsSpaced_star (h : '*' ∉ x) : StarsSpaced ('*' :: ' ' :: x) := by
  intro u v same
  cases u with
  | nil =>
    obtain rfl : ' ' :: x = v := (List.cons.inj same).2
    rfl
  | cons d u =>
    have rest : ' ' :: x = u ++ '*' :: v := (List.cons.inj same).2
    have member : '*' ∈ ' ' :: x := by
      rw [rest]
      exact List.mem_append_right u List.mem_cons_self
    exact absurd member (by simpa using h)

theorem StarsSpaced.append (hx : StarsSpaced x) (hy : StarsSpaced y) : StarsSpaced (x ++ y) := by
  intro u v same
  rcases List.append_eq_append_iff.mp same with ⟨s, rfl, rest⟩ | ⟨s, rfl, rest⟩
  · exact hy s v rest
  · cases s with
    | nil => exact hy [] v rest.symm
    | cons d s =>
      obtain ⟨rfl, rfl⟩ : '*' = d ∧ v = s ++ y := List.cons.inj rest
      have next := hx u s rfl
      cases s with
      | nil => simp at next
      | cons e s => exact next

theorem StarsSpaced.two_stars_apart (h : StarsSpaced x) : ¬ "**".toList <:+: x := by
  rintro ⟨u, v, same⟩
  have next := h u ('*' :: v) (by simpa using same.symm)
  exact absurd next (by simp)

end MemLogic.Text
