import MemLogic.Proofs.Group.Whole

/-! Texts put together around a separator: the group texts of the whole are those of the two parts,
and around an underscore the last one of the first part and the first one of the second are one. -/

namespace MemLogic.Group
open Lookback

variable {before : Lookback} {x y t : Text}

theorem prepend_append {pieces : List Text} (nonempty : pieces ≠ []) (c : Char)
    (more : List Text) : prepend c (pieces ++ more) = prepend c pieces ++ more := by
  cases pieces with
  | nil => exact absurd rfl nonempty
  | cons piece pieces => rfl

/-- Behind a separator nothing is left to look back on. -/
theorem cut_append_separator (free : before.through x ≠ .hexMark) :
    cut before (x ++ 'S' :: y) = cut before x ++ cut .other y := by
  induction x generalizing before with
  | nil =>
    have unmarked : before ≠ .hexMark := free
    simp [cut, unmarked]
  | cons c x ih =>
    have rest : (before.after c).through x ≠ .hexMark := free
    rw [List.cons_append, cut, cut]
    split
    · rename_i separator
      have forgets : before.after c = .other := by
        simp [after, separator.1]
      rw [forgets] at rest
      rw [ih rest, List.cons_append]
    · rw [ih rest, prepend_append (cut_ne_nil _ x)]

theorem split_append_separator (free : ¬ EndsInHexMark x) (y : Text) :
    split (x ++ 'S' :: y) = split x ++ split y :=
  cut_append_separator fun marked => free (through_eq_hexMark.mp marked)

/-- Around a boundary two group texts are put together. -/
theorem cut_append_boundary {c : Char} (h : IsBoundary c) (before : Lookback) (x y : Text) :
    ∃ xs u v ys, cut before x = xs ++ [u] ∧ cut .other y = v :: ys ∧
      cut before (x ++ c :: y) = xs ++ (u ++ c :: v) :: ys := by
  induction x generalizing before with
  | nil =>
    obtain ⟨v, ys, pieces⟩ := List.exists_cons_of_ne_nil (cut_ne_nil .other y)
    have marks : c ≠ 'S' ∧ c ≠ '0' ∧ c ≠ 'x' ∧ c ≠ 'X' := by simpa [IsBoundary] using h
    have forgets : before.after c = .other := by
      simp [after, marks]
    refine ⟨[], [], v, ys, rfl, pieces, ?_⟩
    rw [List.nil_append, cut, if_neg fun separator => marks.1 separator.1, forgets, pieces]
    rfl
  | cons d x ih =>
    rw [List.cons_append, cut, cut]
    split
    · obtain ⟨xs, u, v, ys, first, second, whole⟩ := ih .other
      exact ⟨[] :: xs, u, v, ys, congrArg ([] :: ·) first, second, congrArg ([] :: ·) whole⟩
    · obtain ⟨xs, u, v, ys, first, second, whole⟩ := ih (before.after d)
      rw [first, whole]
      cases xs with
      | nil => exact ⟨[], d :: u, v, ys, rfl, second, rfl⟩
      | cons w xs => exact ⟨(d :: w) :: xs, u, v, ys, rfl, second, rfl⟩

theorem split_append_underscore (x y : Text) : ∃ xs u v ys, split x = xs ++ [u] ∧
    split y = v :: ys ∧ split (x ++ '_' :: y) = xs ++ (u ++ '_' :: v) :: ys :=
  cut_append_boundary (by decide) .other x y

theorem segments_append_underscore (x y : Text) :
    segments (x ++ '_' :: y) = segments x ++ segments y := by
  unfold segments List.splitOn
  rw [List.splitOnP_append_cons x y (by decide), List.filter_append]

/-- Nothing but underscores. -/
def IsBlank (t : Text) : Prop :=
  ∀ c ∈ t, c = '_'

instance (t : Text) : Decidable (IsBlank t) :=
  inferInstanceAs (Decidable (∀ _ ∈ _, _))

theorem segments_eq_nil : segments t = [] ↔ IsBlank t := by
  induction t with
  | nil => simp [IsBlank, segments]
  | cons c t ih =>
    by_cases underscore : c = '_'
    · have tail : segments (c :: t) = segments t := by
        rw [underscore]
        exact segments_append_underscore [] t
      rw [tail, ih, IsBlank, IsBlank, List.forall_mem_cons]
      exact (and_iff_right underscore).symm
    · obtain ⟨piece, pieces, rest⟩ := List.exists_cons_of_ne_nil (List.splitOn_ne_nil '_' t)
      have head : (c :: t).splitOn '_' = (c :: piece) :: pieces := by
        unfold List.splitOn at rest ⊢
        simp [List.splitOnP_cons_eq_if_modifyHead, underscore, rest]
      simp [segments, head, IsBlank, underscore]

/-- One group of two: the requirements of both in order, where those of a blank text, which are
vacant, are left out unless both are blank. -/
def merge (x y : Text) (g h : Group) : Group :=
  if IsBlank x ∧ IsBlank y then [Requirement.vacant]
  else (if IsBlank x then [] else g) ++ (if IsBlank y then [] else h)

end MemLogic.Group
