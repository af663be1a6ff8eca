import MemLogic.Proofs.Condition.Denotation
import MemLogic.Proofs.Group.Whole

/-! Conditions of a single requirement: a segment that can be read is a condition by itself where no
capital S cuts it, and there alone. -/

namespace MemLogic
open Text

/-- No constant holds a zero, so that any capital S cuts it. -/
theorem Group.whole_constant {w : Text} (h : Payload.isConstant w) : Whole w ↔ 'S' ∉ w := by
  constructor
  · intro whole member
    obtain ⟨x, y, rfl⟩ := List.append_of_mem member
    have zero : '0' ∈ x := by
      rcases whole x y rfl with mark | mark
      · exact mark.subset (by decide)
      · exact mark.subset (by decide)
    have zeroless : ∀ v ∈ Payload.constantWords, '0' ∉ v := by decide
    have low : '0' ∈ lower (x ++ 'S' :: y) :=
      List.mem_map.mpr ⟨'0', List.mem_append_left _ zero, by decide⟩
    exact zeroless _ (Operand.Spelling.lower_mem_constantWords h) low
  · exact whole_of_not_mem

namespace Requirement.Reading

variable {r : Reading}

theorem IsValid.flag_boundary (h : r.IsValid) : ∀ c ∈ r.flag, Group.IsBoundary c := by
  rcases h.flag with empty | ⟨c, letter, flag⟩
  · simp [empty]
  · have other : ∀ d ∈ "S0xX".toList, d.toUpper ∉ "PRABCDNOMQITZGK".toList := by decide
    have first : Group.IsBoundary c := fun member => other c member letter
    rw [flag]
    exact List.forall_mem_cons.mpr ⟨first, by decide⟩

theorem whole_hits {hits : Text} (h : hits = [] ∨ IsHitCount hits) (x : Text) :
    Group.Whole (x ++ hits) ↔ Group.Whole x := by
  rcases h with rfl | ⟨o, c, digits, opening, closing, _, digit, rfl⟩
  · rw [List.append_nil]
  · have first : ∀ o ∈ ".(".toList, Group.IsBoundary o := by decide
    have last : ∀ c ∈ ".)]".toList, c ≠ 'S' := by decide
    have rest : 'S' ∉ digits ++ [c] := by
      intro member
      rcases List.mem_append.mp member with member | member
      · exact absurd (digit _ member) (by decide)
      · exact last c closing (List.mem_singleton.mp member).symm
    exact (first o opening).whole_append_cons.trans (and_iff_left (Group.whole_of_not_mem rest))

theorem IsValid.whole_sides (h : r.IsValid) :
    Group.Whole (r.left ++ r.comparisonText) ↔ ∀ x ∈ r.operands, Group.Whole x := by
  unfold comparisonText operands
  split
  · rename_i symbol right same
    have comparator := (Spelling.isComparator_iff symbol).mp (h.comparison _ _ same).1
    have boundary : ∀ t ∈ Spelling.comparatorTokens, ∀ c ∈ t, Group.IsBoundary c := by decide
    cases symbol with
    | nil => exact absurd rfl (Spelling.comparatorTokens_ne_nil _ comparator)
    | cons d more =>
      obtain ⟨first, rest⟩ := List.forall_mem_cons.mp (boundary _ comparator)
      rw [List.cons_append, first.whole_append_cons, Group.whole_boundaries_append rest, same]
      simp
  · rename_i same
    simp [same]

/-- A segment is whole where its operands are: nothing around them is, or marks, a separator. -/
theorem IsValid.whole_text (h : r.IsValid) :
    Group.Whole r.text ↔ ∀ x ∈ r.operands, Group.Whole x := by
  rw [text, whole_hits h.hits, List.append_assoc, Group.whole_boundaries_append h.flag_boundary,
    h.whole_sides]

end Requirement.Reading

theorem Requirement.not_mem_of_read {s : Text} {q : Requirement} (h : read s = .ok q) :
    '_' ∉ s := by
  obtain ⟨r, longest, _⟩ := Reading.exists_isLongest_of_read h
  rw [← longest.text]
  exact longest.valid.separated

namespace Group

/-- A segment is a group by itself; without a character it is read as the vacant requirement. -/
theorem read_segment {s : Text} {q : Requirement} (h : Requirement.read s = .ok q) :
    read s = .ok [q] := by
  by_cases empty : s = []
  · subst empty
    have vacant : Requirement.read [] = .ok .vacant := rfl
    rw [Except.ok.inj (h.symm.trans vacant)]
    rfl
  · rw [read_eq_ok, segments_eq_singleton (Requirement.not_mem_of_read h) empty]
    exact .inr ⟨List.cons_ne_nil _ _, .cons h .nil⟩

end Group

namespace Condition

variable {s : Text} {q : Requirement}

theorem read_of_whole (h : Requirement.read s = .ok q) (whole : Group.Whole s) :
    read s = .ok (ofGroups [[q]]) := by
  rw [read, whole.split_eq, List.mapM_cons, Group.read_segment h]
  rfl

theorem length_groups {t : Text} {c : Condition} (h : read t = .ok c) :
    c.groups.length = (Group.split t).length := by
  have lengths := (read_eq_ok.mp h).1.length_eq
  rw [List.length_map] at lengths
  exact lengths.symm

/-- A segment that can be read is the whole of a condition where each capital S in it directly
follows `0x` or `0X`. Any other capital S cuts it, and what is read then has more groups. Only the
operands can hold a capital S; a braced name is cut as the name is, and a constant at each capital
S. -/
theorem read_alone_iff_whole (h : Requirement.read s = .ok q) :
    ((∃ c, read s = .ok c ∧ c.groups = [[q]]) ↔ Group.Whole s) ∧
    (Group.Whole s → read s = .ok ⟨[[q]], addressesOf [[q]]⟩) ∧
    (¬ Group.Whole s → ∀ c, read s = .ok c → 2 ≤ c.groups.length) ∧
    (∀ r : Requirement.Reading, r.IsLongest s →
      (Group.Whole s ↔ ∀ x ∈ r.operands, Group.Whole x)) ∧
    (∀ name : Text, Group.Whole ('\x7b' :: name ++ ['\x7d']) ↔ Group.Whole name) ∧
    ∀ w : Text, Payload.isConstant w → (Group.Whole w ↔ 'S' ∉ w) := by
  refine ⟨⟨?_, ?_⟩, read_of_whole h, ?_, ?_, Group.whole_braced, fun _ => Group.whole_constant⟩
  · rintro ⟨c, outcome, groups⟩
    rw [← Group.length_split_eq_one, ← length_groups outcome, groups]
    rfl
  · exact fun whole => ⟨_, read_of_whole h whole, rfl⟩
  · intro divided c outcome
    have nonempty := List.length_pos_iff.mpr (Group.cut_ne_nil .other s)
    have several := Group.length_split_eq_one.not.mpr divided
    rw [length_groups outcome]
    unfold Group.split at several ⊢
    omega
  · rintro r longest
    rw [← longest.text, longest.valid.whole_text]

/-- A capital S as a size letter, and a braced name without one. -/
theorem read_alone_bit_against_variable :
    Requirement.read "R:0xS1234=\x7bPascalCase\x7d.3.".toList = .ok ⟨.resetIf,
      ⟨.mem, some .bit6, "0x001234".toList⟩, .eq, ⟨.named, none, "PascalCase".toList⟩, some 3⟩ ∧
    read "R:0xS1234=\x7bPascalCase\x7d.3.".toList = .ok ⟨[[⟨.resetIf,
      ⟨.mem, some .bit6, "0x001234".toList⟩, .eq, ⟨.named, none, "PascalCase".toList⟩, some 3⟩]],
      ["0x001234".toList]⟩ := by
  have outcome : Requirement.read "R:0xS1234=\x7bPascalCase\x7d.3.".toList = .ok ⟨.resetIf,
      ⟨.mem, some .bit6, "0x001234".toList⟩, .eq, ⟨.named, none, "PascalCase".toList⟩,
      some 3⟩ := by decide +kernel
  have whole : Group.Whole "R:0xS1234=\x7bPascalCase\x7d.3.".toList :=
    Group.length_split_eq_one.mp (by decide)
  exact ⟨outcome, (read_alone_iff_whole outcome).2.1 whole⟩

/-- A variable whose name is a capital S can be read as a requirement and not as a condition. -/
theorem not_all_requirements_read_alone :
    ¬ ∀ (s : Text) (q : Requirement), s ≠ [] → Requirement.read s = .ok q →
      ∃ c, read s = .ok c ∧ c.groups = [[q]] := by
  intro alone
  have outcome : Requirement.read "\x7bS\x7d".toList =
      .ok ⟨.plain, ⟨.named, none, "S".toList⟩, .eq, ⟨.value, none, []⟩, some 0⟩ := by
    decide +kernel
  have refused : read "\x7bS\x7d".toList = .error (.noShape "\x7b".toList) := by decide +kernel
  obtain ⟨c, accepted, _⟩ := alone _ _ (by decide) outcome
  exact absurd (refused.symm.trans accepted) (by simp)

end Condition
end MemLogic
