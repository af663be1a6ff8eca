import MemLogic.Condition
import MemLogic.Proofs.Operand.Literal
import MemLogic.Proofs.Requirement.LongestReading

/-! Failure of a condition: the first segment that cannot be read decides it, and a segment cannot
be read for its shape or for a number in it alone. -/

namespace MemLogic

namespace Requirement
open Spelling

/-- A number of more digits than are converted: a decimal literal on either side, or a hit count
that is not dropped. -/
inductive Reading.LongNumber (r : Reading) (digits : Text) : Prop where
  | left (decimal : Operand.IsDecimal digits r.left)
  | right {symbol right : Text} (comparison : r.comparison = some (symbol, right))
      (decimal : Operand.IsDecimal digits right)
  | hits {f : Flag} (flag : r.Flags f) (counted : ¬ f.accumulates) (same : digits = r.digits)

theorem Reading.Fails.longNumber {r : Reading} (valid : r.IsValid) {e : Error} (h : r.Fails e) :
    ∃ digits, r.LongNumber digits ∧ Numeral.maxDigits < digits.length ∧
      e = .tooManyDigits digits.length := by
  obtain ⟨n, _, rfl⟩ := valid.tooManyDigits h
  cases h with
  | left fails =>
    obtain ⟨digits, decimal, rfl, long⟩ := Operand.read_eq_tooManyDigits.mp fails
    exact ⟨digits, .left decimal, long, rfl⟩
  | right _ comparison fails =>
    obtain ⟨digits, decimal, rfl, long⟩ := Operand.read_eq_tooManyDigits.mp fails
    exact ⟨digits, .right comparison decimal, long, rfl⟩
  | hits flag _ _ counted long error => exact ⟨r.digits, .hits flag counted rfl, long, error⟩

/-- A segment has no shape, is read, or has a number in it that is too long. -/
theorem read_cases (s : Text) :
    (¬ ∃ r : Reading, r.IsValid ∧ r.text = s) ∧ read s = .error (.noShape s) ∨
    (∃ q, read s = .ok q) ∨
    ∃ (r : Reading) (digits : Text), r.IsLongest s ∧ r.LongNumber digits ∧
      Numeral.maxDigits < digits.length ∧ read s = .error (.tooManyDigits digits.length) := by
  cases found : Spelling.read? s with
  | none =>
    left
    refine ⟨Reading.read?_eq_none_iff.mp found, ?_⟩
    rw [read, found]
  | some spelling =>
    right
    obtain ⟨r, longest, _⟩ := Reading.exists_isLongest found
    cases outcome : read s with
    | ok q => exact .inl ⟨q, rfl⟩
    | error e =>
      obtain ⟨digits, number, long, rfl⟩ :=
        (longest.read_eq_error.mp outcome).longNumber longest.valid
      exact .inr ⟨r, digits, longest, number, long, rfl⟩

/-- A size that is looked up: neither missing nor the lone `h`. -/
def Spelling.LooksUp (s : Spelling) (token : Text) : Prop :=
  ∃ o m p, (o = s.left ∨ ∃ symbol, s.comparison = some (symbol, o)) ∧
    o = Operand.Spelling.plain m token p ∧ token ≠ [] ∧ Text.lower token ≠ ['h']

/-- What was taken off a segment as a flag, a comparator or a size is one. -/
theorem Reading.SpelledAs.known {r : Reading} {s : Spelling} (h : r.SpelledAs s) :
    (∃ f, Flag.ofLetter s.flag = .ok f) ∧
      (∃ c, Comparator.ofSymbol ((s.comparison.map Prod.fst).getD []) = .ok c) ∧
        ∀ token, s.LooksUp token → ∃ size, Size.ofToken token = .ok size := by
  refine ⟨h.flag_ok, h.comparator_ok, ?_⟩
  rintro token ⟨o, m, p, place, rfl, nonempty, sized⟩
  have shape : ∃ t, Operand.Spelling.Shape t (.plain m token p) := by
    rcases place with same | ⟨symbol, same⟩
    · exact ⟨_, same ▸ shape_of_read? h.sides.operand⟩
    · have spells := h.sides.spells
      rw [same] at spells
      generalize r.comparison = pieces at spells
      cases spells with
      | some _ operand => exact ⟨_, shape_of_read? operand⟩
  obtain ⟨_, shape⟩ := shape
  obtain ⟨_, _, size, _, _⟩ := shape.parts
  exact Size.ofToken_of_mem (size.resolve_left nonempty) sized

end Requirement

namespace Group

/-- A group of the requirements that its segments are read as, or of the vacant one alone. -/
def Holds (segments : List Text) (group : Group) : Prop :=
  segments = [] ∧ group = [Requirement.vacant] ∨
    segments ≠ [] ∧ List.Forall₂ (fun s q => Requirement.read s = .ok q) segments group

theorem read_eq_ok {t : Text} {group : Group} :
    read t = .ok group ↔ Holds (segments t) group := by
  unfold read Holds
  split
  · rename_i empty
    simp only [empty, Except.ok.injEq, true_and, ne_eq, not_true_eq_false, false_and, or_false]
    exact eq_comm
  · rename_i nonempty
    have present : segments t ≠ [] := nonempty
    simp only [present, false_and, false_or, ne_eq, not_false_eq_true, true_and]
    exact mapM_eq_ok

theorem read_eq_error {t : Text} {e : Error} :
    read t = .error e ↔ (segments t).mapM Requirement.read = .error e := by
  unfold read
  split
  · rename_i empty
    simp [empty, pure, Except.pure]
  · exact Iff.rfl

theorem exists_read {t : Text} : (∃ group, read t = .ok group) ↔
    ∀ s ∈ segments t, ∃ q, Requirement.read s = .ok q := by
  rw [← exists_mapM_ok]
  cases outcome : (segments t).mapM Requirement.read with
  | error e =>
    have fails := read_eq_error.mpr outcome
    simp [fails]
  | ok qs =>
    cases result : read t with
    | error e =>
      rw [read_eq_error.mp result] at outcome
      exact absurd outcome (by simp)
    | ok group => simp

end Group

namespace Condition

/-- The segments of all groups in the order of the text. -/
def segments (t : Text) : List Text :=
  (Group.split t).flatMap Group.segments

/-- Group by group the same segments are read as in a row. -/
theorem mapM_groups_eq_error {pieces : List Text} {e : Error} :
    pieces.mapM Group.read = .error e ↔
      (pieces.flatMap Group.segments).mapM Requirement.read = .error e := by
  induction pieces with
  | nil => simp [pure, Except.pure]
  | cons piece pieces ih =>
    have first : (∃ group, Group.read piece = .ok group) ↔
        ∃ qs, (Group.segments piece).mapM Requirement.read = .ok qs := by
      rw [Group.exists_read, exists_mapM_ok]
    simp only [List.mapM_cons, List.flatMap_cons, List.mapM_append, bind_eq_error, pure_ne_error,
      and_false, exists_false, or_false, ih, Group.read_eq_error]
    rw [exists_and_right, exists_and_right, first]

theorem read_eq_error {t : Text} {e : Error} : read t = .error e ↔
    ∃ before s after, segments t = before ++ s :: after ∧
      (∀ s' ∈ before, ∃ q, Requirement.read s' = .ok q) ∧ Requirement.read s = .error e := by
  rw [read, map_eq_error, mapM_groups_eq_error, mapM_eq_error]
  rfl

theorem read_eq_ok {t : Text} {c : Condition} : read t = .ok c ↔
    List.Forall₂ Group.Holds ((Group.split t).map Group.segments) c.groups ∧
      c.addresses = addressesOf c.groups := by
  have holds (groups : List Group) : (Group.split t).mapM Group.read = .ok groups ↔
      List.Forall₂ Group.Holds ((Group.split t).map Group.segments) groups := by
    rw [mapM_eq_ok, List.forall₂_map_left_iff]
    exact ⟨fun h => h.imp fun _ _ => Group.read_eq_ok.mp,
      fun h => h.imp fun _ _ => Group.read_eq_ok.mpr⟩
  rw [read, map_eq_ok]
  constructor
  · rintro ⟨groups, outcome, rfl⟩
    exact ⟨(holds groups).mp outcome, rfl⟩
  · rintro ⟨outcome, addresses⟩
    refine ⟨c.groups, (holds _).mpr outcome, ?_⟩
    rw [ofGroups, ← addresses]

theorem exists_read {t : Text} : (∃ c, read t = .ok c) ↔
    ∀ s ∈ segments t, ∃ q, Requirement.read s = .ok q := by
  have groups : (∃ c, read t = .ok c) ↔ ∃ groups, (Group.split t).mapM Group.read = .ok groups := by
    simp [read, map_eq_ok]
  rw [groups, exists_mapM_ok]
  simp only [Group.exists_read, segments, List.mem_flatMap]
  constructor
  · rintro h s ⟨piece, member, inside⟩
    exact h piece member s inside
  · exact fun h piece member s inside => h s ⟨piece, member, inside⟩

theorem read_error_cases {t : Text} {e : Error} (h : read t = .error e) :
    (∃ segment ∈ segments t, e = .noShape segment) ∨
      ∃ n, Numeral.maxDigits < n ∧ e = .tooManyDigits n := by
  obtain ⟨before, s, after, split, _, fails⟩ := read_eq_error.mp h
  have member : s ∈ segments t := by simp [split]
  rcases Requirement.read_cases s with ⟨_, shape⟩ | ⟨q, outcome⟩ | ⟨_, digits, _, _, long, number⟩
  · exact .inl ⟨s, member, Except.error.inj (fails.symm.trans shape)⟩
  · exact absurd (fails.symm.trans outcome) (by simp)
  · exact .inr ⟨_, long, Except.error.inj (fails.symm.trans number)⟩

/-- A text is read as a whole or not at all, and for the first segment that fails. A segment fails
for its shape, or for a number that is too long; flags, comparators and sizes are known once they
were taken off. -/
theorem read_fails_at_first_segment (t : Text) :
    ((∃ c, read t = .ok c) ↔ ∀ s ∈ segments t, ∃ q, Requirement.read s = .ok q) ∧
    (∀ c, read t = .ok c ↔
      List.Forall₂ Group.Holds ((Group.split t).map Group.segments) c.groups ∧
        c.addresses = addressesOf c.groups) ∧
    (∀ e, read t = .error e ↔ ∃ before s after, segments t = before ++ s :: after ∧
      (∀ s' ∈ before, ∃ q, Requirement.read s' = .ok q) ∧ Requirement.read s = .error e) ∧
    ∀ s ∈ segments t,
      ((¬ ∃ r : Requirement.Reading, r.IsValid ∧ r.text = s) ∧
          Requirement.read s = .error (.noShape s) ∨
        (∃ q, Requirement.read s = .ok q) ∨
        ∃ (r : Requirement.Reading) (digits : Text), r.IsLongest s ∧ r.LongNumber digits ∧
          Numeral.maxDigits < digits.length ∧
            Requirement.read s = .error (.tooManyDigits digits.length)) ∧
      ∀ spelling, Requirement.Spelling.read? s = some spelling →
        (∃ f, Flag.ofLetter spelling.flag = .ok f) ∧
        (∃ c, Comparator.ofSymbol ((spelling.comparison.map Prod.fst).getD []) = .ok c) ∧
        ∀ token, spelling.LooksUp token → ∃ size, Size.ofToken token = .ok size := by
  refine ⟨exists_read, fun _ => read_eq_ok, fun _ => read_eq_error, fun s _ => ⟨?_, ?_⟩⟩
  · exact Requirement.read_cases s
  · intro spelling found
    obtain ⟨r, _, spelled⟩ := Requirement.Reading.exists_isLongest found
    exact spelled.known

end Condition
end MemLogic
