import MemLogic.Proofs.Condition.Addresses
import MemLogic.Proofs.Condition.SingleRequirement
import MemLogic.Proofs.Requirement.WellFormed

/-! Well-formed conditions: what is true of the groups, requirements and operands of every condition
that was read. -/

namespace MemLogic

theorem Group.Holds.ne_nil {ss : List Text} {group : Group} (h : Holds ss group) : group ≠ [] := by
  rcases h with ⟨_, rfl⟩ | ⟨present, each⟩
  · exact List.cons_ne_nil _ _
  · rintro rfl
    exact present (List.forall₂_nil_right_iff.mp each)

namespace Condition

variable {t : Text} {c : Condition}

theorem groups_ne_nil (h : read t = .ok c) : c.groups ≠ [] := by
  rw [← List.length_pos_iff, length_groups h, List.length_pos_iff]
  exact Group.cut_ne_nil _ t

theorem group_ne_nil (h : read t = .ok c) {group : Group} (member : group ∈ c.groups) :
    group ≠ [] := by
  obtain ⟨_, _, holds⟩ := exists_mem_left (read_eq_ok.mp h).1 group member
  exact holds.ne_nil

theorem wellFormed_of_mem (h : read t = .ok c) {q : Requirement} (member : q ∈ c.groups.flatten) :
    q.WellFormed := by
  rcases exists_segment h member with rfl | ⟨_, _, read⟩
  · exact Requirement.wellFormed_vacant
  · exact Requirement.wellFormed_of_read read

theorem operand_wellFormed (h : read t = .ok c) {o : Operand} (member : o ∈ c.operands) :
    o.WellFormed := by
  obtain ⟨q, hq, rfl | rfl⟩ := mem_operands.mp member
  · exact (wellFormed_of_mem h hq).left
  · exact (wellFormed_of_mem h hq).right

/-- An address is a line of its own. -/
theorem address_line (h : read t = .ok c) {a : Text} (member : a ∈ c.addresses) :
    a ≠ [] ∧ '\n' ∉ a := by
  rw [addresses_eq h, List.mem_eraseDups] at member
  obtain ⟨o, ho, found⟩ := List.mem_filterMap.mp member
  obtain ⟨_, rfl, nonempty⟩ := Operand.address?_eq_some.mp found
  exact ⟨nonempty, (operand_wellFormed h ho).tidy.not_mem (by decide) (by decide)⟩

/-- A condition that was read has a group, each of its groups has a requirement, and each of its
requirements is well-formed. No value of an operand can break a line or a quotation. -/
theorem read_wellFormed (h : read t = .ok c) :
    c.groups ≠ [] ∧ (∀ group ∈ c.groups, group ≠ [] ∧ ∀ q ∈ group, q.WellFormed) ∧
    ∀ o ∈ c.operands, o.WellFormed ∧ ∀ d ∈ [' ', '\n', '"', '\'', '\x60'], d ∉ o.value := by
  have requirements : ∀ group ∈ c.groups, ∀ q ∈ group, q.WellFormed :=
    fun group hg q hq => wellFormed_of_mem h (List.mem_flatten.mpr ⟨group, hg, hq⟩)
  refine ⟨groups_ne_nil h, fun group hg => ⟨group_ne_nil h hg, requirements group hg⟩, ?_⟩
  intro o member
  refine ⟨operand_wellFormed h member, fun d hd => ?_⟩
  have outside : ∀ d ∈ [' ', '\n', '"', '\'', '\x60'],
      d.isAlphanum = false ∧ d ∉ "+-.".toList := by decide
  exact (operand_wellFormed h member).tidy.not_mem (outside d hd).1 (outside d hd).2

/-- A sized and an unsized operand under an accumulating flag, a name and the recalled value. -/
theorem read_wellFormed_accumulating :
    ∃ c, read "A:fF1*f-1.5S\x7bFoo\x7d=\x7brecall\x7d.3.".toList = .ok c ∧ c.groups ≠ [] ∧
      (∀ group ∈ c.groups, group ≠ [] ∧ ∀ q ∈ group, q.WellFormed) ∧
      ∀ o ∈ c.operands, o.WellFormed ∧ ∀ d ∈ [' ', '\n', '"', '\'', '\x60'], d ∉ o.value := by
  have outcome : read "A:fF1*f-1.5S\x7bFoo\x7d=\x7brecall\x7d.3.".toList = .ok
      ⟨[[⟨.addSource, ⟨.float, some .float, "0x000001".toList⟩, .mul,
          ⟨.float, none, "-1.5".toList⟩, none⟩],
        [⟨.plain, ⟨.named, none, "Foo".toList⟩, .eq, ⟨.recalled, none, []⟩, some 3⟩]],
        ["0x000001".toList]⟩ := by decide +kernel
  exact ⟨_, outcome, read_wellFormed outcome⟩

end Condition
end MemLogic
