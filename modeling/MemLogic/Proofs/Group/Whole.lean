import MemLogic.Proofs.Group.Joined

/-! Whole texts: where a text is one group, said of the characters before each capital S and not of
the look back along the text. -/

namespace MemLogic.Group
open Text Lookback

/-- A capital S behind the text is a size letter. -/
def EndsInHexMark (x : Text) : Prop :=
  "0x".toList <:+ x ∨ "0X".toList <:+ x

/-- Every capital S directly follows `0x` or `0X`. -/
def Whole (t : Text) : Prop :=
  ∀ x y, t = x ++ 'S' :: y → EndsInHexMark x

variable {before : Lookback} {t : Text}

theorem Lookback.through_concat (before : Lookback) (x : Text) (c : Char) :
    before.through (x ++ [c]) = (before.through x).after c :=
  through_append before x [c]

theorem Lookback.through_eq_zero {x : Text} : other.through x = .zero ↔ ['0'] <:+ x := by
  rcases List.eq_nil_or_concat x with rfl | ⟨x, c, rfl⟩
  · simp [through]
  · rw [List.concat_eq_append, through_concat, after]
    constructor
    · intro same
      by_cases zero : c = '0'
      · exact ⟨x, by rw [zero]⟩
      · rw [if_neg zero] at same
        split at same <;> exact absurd same (by simp)
    · rintro ⟨y, same⟩
      obtain ⟨_, last⟩ := List.append_inj' same rfl
      rw [if_pos (List.singleton_inj.mp last).symm]

/-- The look back ends at a size mark where the text does. -/
theorem Lookback.through_eq_hexMark {x : Text} :
    other.through x = .hexMark ↔ EndsInHexMark x := by
  have marks : EndsInHexMark x ↔ ∃ y c, x = y ++ ['0'] ++ [c] ∧ (c = 'x' ∨ c = 'X') := by
    constructor
    · rintro (⟨y, same⟩ | ⟨y, same⟩)
      · exact ⟨y, 'x', by simpa using same.symm, .inl rfl⟩
      · exact ⟨y, 'X', by simpa using same.symm, .inr rfl⟩
    · rintro ⟨y, c, same, rfl | rfl⟩
      · exact .inl ⟨y, by simpa using same.symm⟩
      · exact .inr ⟨y, by simpa using same.symm⟩
  rw [marks]
  rcases List.eq_nil_or_concat x with rfl | ⟨x, c, rfl⟩
  · simp [through]
  · rw [List.concat_eq_append, through_concat, after]
    constructor
    · intro same
      split at same
      · exact absurd same (by simp)
      · split at same
        · rename_i mark
          obtain ⟨y, rfl⟩ := through_eq_zero.mp mark.1
          exact ⟨y, c, rfl, mark.2⟩
        · exact absurd same (by simp)
    · rintro ⟨y, d, same, mark⟩
      obtain ⟨rfl, last⟩ := List.append_inj' same rfl
      obtain rfl := List.singleton_inj.mp last
      have other : c ≠ '0' := by
        rintro rfl
        exact absurd mark (by decide)
      rw [if_neg other, if_pos ⟨through_eq_zero.mpr ⟨y, rfl⟩, mark⟩]

/-- A text is uncut where the look back from each capital S meets a size mark. -/
theorem uncut_iff :
    Uncut before t ↔ ∀ x y, t = x ++ 'S' :: y → before.through x = .hexMark := by
  induction t generalizing before with
  | nil => simp [Uncut]
  | cons c t ih =>
    rw [Uncut, ih]
    constructor
    · rintro ⟨first, rest⟩ x y whole
      cases x with
      | nil => exact first (List.cons.inj whole).1
      | cons d x =>
        obtain ⟨rfl, tail⟩ := List.cons.inj whole
        exact rest x y tail
    · intro all
      refine ⟨?_, fun x y tail => all (c :: x) y (by rw [tail]; rfl)⟩
      rintro rfl
      exact all [] t rfl

theorem uncut_iff_whole : Uncut .other t ↔ Whole t := by
  simp only [uncut_iff, through_eq_hexMark, Whole]

theorem whole_of_not_mem (h : 'S' ∉ t) : Whole t :=
  uncut_iff_whole.mp (uncut_of_not_mem h)

/-- Neither a separator nor part of a size mark. -/
def IsBoundary (c : Char) : Prop :=
  c ∉ "S0xX".toList

instance (c : Char) : Decidable (IsBoundary c) :=
  inferInstanceAs (Decidable (_ ∉ _))

/-- No look back goes beyond a boundary. -/
theorem IsBoundary.whole_append_cons {c : Char} (h : IsBoundary c) {x y : Text} :
    Whole (x ++ c :: y) ↔ Whole x ∧ Whole y := by
  have marks : c ≠ 'S' ∧ c ≠ '0' ∧ c ≠ 'x' ∧ c ≠ 'X' := by simpa [IsBoundary] using h
  have forgets : (other.through x).after c = .other := by
    simp [after, marks]
  rw [← uncut_iff_whole, ← uncut_iff_whole, ← uncut_iff_whole, uncut_append, Uncut, forgets]
  simp [marks]

theorem whole_boundaries_append {b : Text} (h : ∀ c ∈ b, IsBoundary c) (y : Text) :
    Whole (b ++ y) ↔ Whole y := by
  induction b with
  | nil => exact Iff.rfl
  | cons c b ih =>
    obtain ⟨first, rest⟩ := List.forall_mem_cons.mp h
    have empty : Whole [] := whole_of_not_mem List.not_mem_nil
    exact (first.whole_append_cons (x := [])).trans ((and_iff_right empty).trans (ih rest))

/-- A braced name is whole where the name is. -/
theorem whole_braced (name : Text) : Whole ('\x7b' :: name ++ ['\x7d']) ↔ Whole name := by
  have opening : IsBoundary '\x7b' := by decide
  have closing : IsBoundary '\x7d' := by decide
  have empty : Whole [] := whole_of_not_mem List.not_mem_nil
  calc Whole ('\x7b' :: name ++ ['\x7d'])
      ↔ Whole [] ∧ Whole (name ++ ['\x7d']) := opening.whole_append_cons (x := [])
    _ ↔ Whole (name ++ ['\x7d']) := and_iff_right empty
    _ ↔ Whole name ∧ Whole [] := closing.whole_append_cons
    _ ↔ Whole name := and_iff_left empty

theorem cut_ne_nil (before : Lookback) (t : Text) : cut before t ≠ [] := by
  cases t with
  | nil => exact List.cons_ne_nil _ _
  | cons c t =>
    rw [cut]
    split
    · exact List.cons_ne_nil _ _
    · cases cut (before.after c) t <;> exact List.cons_ne_nil _ _

theorem length_prepend {pieces : List Text} (nonempty : pieces ≠ []) (c : Char) :
    (prepend c pieces).length = pieces.length := by
  cases pieces with
  | nil => exact absurd rfl nonempty
  | cons piece pieces => rfl

theorem length_cut_eq_one : (cut before t).length = 1 ↔ Uncut before t := by
  induction t generalizing before with
  | nil => simp [cut, Uncut]
  | cons c t ih =>
    rw [cut, Uncut, ← ih]
    split
    · rename_i separator
      have more := List.length_pos_iff.mpr (cut_ne_nil .other t)
      have cutOff : ¬ (c = 'S' → before = .hexMark) := fun kept => separator.2 (kept separator.1)
      simp only [cutOff, false_and, iff_false, List.length_cons]
      omega
    · rename_i kept
      rw [length_prepend (cut_ne_nil _ t)]
      have marked : c = 'S' → before = .hexMark := by
        intro capital
        by_contra unmarked
        exact kept ⟨capital, unmarked⟩
      exact (and_iff_right marked).symm

theorem Whole.split_eq (h : Whole t) : split t = [t] :=
  cut_of_uncut (uncut_iff_whole.mpr h)

theorem length_split_eq_one : (split t).length = 1 ↔ Whole t :=
  length_cut_eq_one.trans uncut_iff_whole

end MemLogic.Group
