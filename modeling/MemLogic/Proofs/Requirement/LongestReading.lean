import MemLogic.Proofs.Requirement.Meaning

/-! The grammar of a segment: it is refused exactly where it has no reading, and is otherwise read
as the reading with the longest left operand. -/

namespace MemLogic.Requirement
open Spelling
namespace Reading

/-- No other reading of the text has a longer left operand. -/
structure IsLongest (r : Reading) (t : Text) : Prop where
  valid : r.IsValid
  text : r.text = t
  longest : ∀ r' : Reading, r'.IsValid → r'.text = t → r'.left.length ≤ r.left.length

variable {t : Text} {r r' : Reading}

theorem IsLongest.unique (h : r.IsLongest t) (h' : r'.IsLongest t) : r = r' := by
  obtain ⟨s, hs⟩ := (isValid_iff r).mp h.valid
  obtain ⟨s', hs'⟩ := (isValid_iff r').mp h'.valid
  have length : r.left.length = r'.left.length :=
    Nat.le_antisymm (h'.longest r h.valid h.text) (h.longest r' h'.valid h'.text)
  exact hs.unique hs' (h.text.trans h'.text.symm) length

theorem exists_isLongest {s : Spelling} (h : Spelling.read? t = some s) :
    ∃ r : Reading, r.IsLongest t ∧ r.SpelledAs s := by
  obtain ⟨r, text, spelled, longest⟩ := exists_longest h
  refine ⟨r, ⟨(isValid_iff r).mpr ⟨s, spelled⟩, text, ?_⟩, spelled⟩
  intro r' valid same
  obtain ⟨s', spelled'⟩ := (isValid_iff r').mp valid
  exact longest r' s' spelled' same

/-- A text is spelled out where it has a reading. -/
theorem read?_eq_none_iff :
    Spelling.read? t = none ↔ ¬ ∃ r : Reading, r.IsValid ∧ r.text = t := by
  constructor
  · rintro fails ⟨r, valid, rfl⟩
    obtain ⟨s, spelled⟩ := (isValid_iff r).mp valid
    exact spelled.read?_ne_none fails
  · intro h
    by_contra other
    obtain ⟨s, found⟩ := Option.ne_none_iff_exists'.mp other
    obtain ⟨r, longest, _⟩ := exists_isLongest found
    exact h ⟨r, longest.valid, longest.text⟩

theorem IsLongest.exists_spelling (h : r.IsLongest t) :
    ∃ s, Spelling.read? t = some s ∧ r.SpelledAs s := by
  have found : Spelling.read? t ≠ none := fun fails =>
    read?_eq_none_iff.mp fails ⟨r, h.valid, h.text⟩
  obtain ⟨s, read⟩ := Option.ne_none_iff_exists'.mp found
  obtain ⟨r', longest, spelled⟩ := exists_isLongest read
  obtain rfl := h.unique longest
  exact ⟨s, read, spelled⟩

theorem IsLongest.read_eq_ok (h : r.IsLongest t) {q : Requirement} :
    Requirement.read t = .ok q ↔ r.Yields q := by
  obtain ⟨s, found, spelled⟩ := h.exists_spelling
  rw [Requirement.read, found]
  exact spelled.requirement_eq_ok

theorem IsLongest.read_eq_error (h : r.IsLongest t) {e : Error} :
    Requirement.read t = .error e ↔ r.Fails e := by
  obtain ⟨s, found, spelled⟩ := h.exists_spelling
  rw [Requirement.read, found]
  exact spelled.requirement_eq_error

theorem exists_isLongest_of_read {q : Requirement} (h : Requirement.read t = .ok q) :
    ∃ r : Reading, r.IsLongest t ∧ r.Yields q := by
  cases found : Spelling.read? t with
  | none =>
    rw [Requirement.read, found] at h
    exact absurd h (by simp)
  | some spelling =>
    obtain ⟨r, longest, _⟩ := exists_isLongest found
    exact ⟨r, longest, longest.read_eq_ok.mp h⟩

theorem IsOperand.tooManyDigits {e : Error} (h : IsOperand t) (fails : Operand.read t = .error e) :
    ∃ n, Numeral.maxDigits < n ∧ e = .tooManyDigits n := by
  obtain ⟨s, operand⟩ := (isOperand_iff t).mp h
  rw [Operand.read_eq_operand operand] at fails
  exact (shape_of_read? operand).operand_tooManyDigits fails

theorem IsValid.tooManyDigits (h : r.IsValid) {e : Error} (fails : r.Fails e) :
    ∃ n, Numeral.maxDigits < n ∧ e = .tooManyDigits n := by
  cases fails with
  | left fails => exact h.left.tooManyDigits fails
  | right _ comparison fails => exact (h.comparison _ _ comparison).2.tooManyDigits fails
  | hits _ _ _ _ long error => exact ⟨_, long, error⟩

end Reading

/-- A segment without a reading is refused as a whole. Any other has a single reading with the
longest left operand, and is what the pieces of that one stand for, unless a number in it is too
long. -/
theorem read_takes_longest_reading (t : Text) :
    (∀ segment, read t = .error (.noShape segment) ↔
      segment = t ∧ ¬ ∃ r : Reading, r.IsValid ∧ r.text = t) ∧
    ((∃ r : Reading, r.IsValid ∧ r.text = t) → ∃! r : Reading, r.IsLongest t) ∧
    ∀ r : Reading, r.IsLongest t →
      (∀ q, read t = .ok q ↔ r.Yields q) ∧ (∀ e, read t = .error e ↔ r.Fails e) ∧
        ∀ e, r.Fails e → ∃ n, Numeral.maxDigits < n ∧ e = .tooManyDigits n := by
  have longest : (∃ r : Reading, r.IsValid ∧ r.text = t) → ∃ r : Reading, r.IsLongest t := by
    intro reading
    have found : Spelling.read? t ≠ none := fun fails => Reading.read?_eq_none_iff.mp fails reading
    obtain ⟨s, read⟩ := Option.ne_none_iff_exists'.mp found
    obtain ⟨r, longest, _⟩ := Reading.exists_isLongest read
    exact ⟨r, longest⟩
  refine ⟨?_, ?_, ?_⟩
  · intro segment
    constructor
    · intro fails
      by_cases reading : ∃ r : Reading, r.IsValid ∧ r.text = t
      · obtain ⟨r, hr⟩ := longest reading
        obtain ⟨n, _, other⟩ := hr.valid.tooManyDigits (hr.read_eq_error.mp fails)
        exact absurd other (by simp)
      · rw [read, Reading.read?_eq_none_iff.mpr reading] at fails
        exact ⟨(Error.noShape.inj (Except.error.inj fails)).symm, reading⟩
    · rintro ⟨rfl, reading⟩
      rw [read, Reading.read?_eq_none_iff.mpr reading]
  · intro reading
    obtain ⟨r, hr⟩ := longest reading
    exact ⟨r, hr, fun r' hr' => hr'.unique hr⟩
  · intro r hr
    exact ⟨fun _ => hr.read_eq_ok, fun _ => hr.read_eq_error, fun _ => hr.valid.tooManyDigits⟩

end MemLogic.Requirement
