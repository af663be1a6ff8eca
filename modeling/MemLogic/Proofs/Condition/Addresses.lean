import MemLogic.Proofs.Condition.FirstFailure
import MemLogic.Proofs.Operand.Reference

/-! Addresses of a condition: which operands, as they are written, the addresses come from. -/

namespace MemLogic

namespace Requirement

variable {q : Requirement} {r : Reading} {x : Text} {o : Operand}

/-- The sides of a requirement are the operands that its reading writes, and a blank one where
there is no comparison. -/
theorem Reading.Yields.side (h : r.Yields q) (side : o = q.left ∨ o = q.right) :
    o = .blank ∨ ∃ x ∈ r.operands, Operand.read x = .ok o := by
  rcases side with rfl | rfl
  · exact .inr ⟨r.left, List.mem_cons_self, h.left⟩
  · have comparison := h.comparison
    unfold Compares at comparison
    split at comparison
    · exact .inl comparison.2
    · rename_i symbol right compared
      exact .inr ⟨right, by simp [operands, compared], comparison.2⟩

theorem Reading.Yields.operand (h : r.Yields q) (member : x ∈ r.operands) :
    ∃ o, (o = q.left ∨ o = q.right) ∧ Operand.read x = .ok o := by
  rcases List.mem_cons.mp member with rfl | member
  · exact ⟨q.left, .inl rfl, h.left⟩
  · have comparison := h.comparison
    unfold Compares at comparison
    split at comparison
    · rename_i alone
      simp [alone] at member
    · rename_i symbol right compared
      obtain rfl : x = right := by simpa [compared] using member
      exact ⟨q.right, .inr rfl, comparison.2⟩

end Requirement

namespace Group

variable {ss : List Text} {s : Text} {group : Group} {q : Requirement}

theorem Holds.exists_segment (h : Holds ss group) (member : q ∈ group) :
    q = .vacant ∨ ∃ s ∈ ss, Requirement.read s = .ok q := by
  rcases h with ⟨-, rfl⟩ | ⟨-, each⟩
  · exact .inl (List.mem_singleton.mp member)
  · exact .inr (exists_mem_left each q member)

theorem Holds.exists_requirement (h : Holds ss group) (member : s ∈ ss) :
    ∃ q ∈ group, Requirement.read s = .ok q := by
  rcases h with ⟨rfl, -⟩ | ⟨-, each⟩
  · exact absurd member List.not_mem_nil
  · exact exists_mem_right each s member

end Group

namespace Condition

/-- The operands of all requirements, those that hold the place of none included. -/
def operands (c : Condition) : List Operand :=
  c.groups.flatten.flatMap fun q => [q.left, q.right]

/-- The text writes an operand, so spelled, in a segment of it. -/
def Writes (t : Text) (s : Operand.Spelling) (o : Operand) : Prop :=
  ∃ segment ∈ segments t, ∃ r : Requirement.Reading, r.IsLongest segment ∧
    ∃ x ∈ r.operands, Operand.Spelling.read? x = some s ∧ s.operand = .ok o

variable {t a : Text} {c : Condition} {q : Requirement} {s : Operand.Spelling} {o : Operand}

theorem mem_operands :
    o ∈ c.operands ↔ ∃ q ∈ c.groups.flatten, o = q.left ∨ o = q.right := by
  simp [operands]

theorem exists_segment (h : read t = .ok c) (member : q ∈ c.groups.flatten) :
    q = .vacant ∨ ∃ segment ∈ segments t, Requirement.read segment = .ok q := by
  obtain ⟨group, hg, hq⟩ := List.mem_flatten.mp member
  obtain ⟨ss, hss, holds⟩ := exists_mem_left (read_eq_ok.mp h).1 group hg
  obtain ⟨piece, hp, rfl⟩ := List.mem_map.mp hss
  rcases holds.exists_segment hq with vacant | ⟨segment, hs, read⟩
  · exact .inl vacant
  · exact .inr ⟨segment, List.mem_flatMap.mpr ⟨piece, hp, hs⟩, read⟩

theorem exists_requirement (h : read t = .ok c) {segment : Text} (member : segment ∈ segments t) :
    ∃ q ∈ c.groups.flatten, Requirement.read segment = .ok q := by
  obtain ⟨piece, hp, hs⟩ := List.mem_flatMap.mp member
  obtain ⟨group, hg, holds⟩ :=
    exists_mem_right (read_eq_ok.mp h).1 _ (List.mem_map.mpr ⟨piece, hp, rfl⟩)
  obtain ⟨q, hq, read⟩ := holds.exists_requirement hs
  exact ⟨q, List.mem_flatten.mpr ⟨group, hg, hq⟩, read⟩

theorem exists_writes (h : read t = .ok c) (member : o ∈ c.operands) :
    o = .blank ∨ ∃ s, Writes t s o := by
  obtain ⟨q, hq, side⟩ := mem_operands.mp member
  rcases exists_segment h hq with rfl | ⟨segment, hs, read⟩
  · exact .inl (side.elim id id)
  · obtain ⟨r, longest, yields⟩ := Requirement.Reading.exists_isLongest_of_read read
    rcases yields.side side with blank | ⟨x, hx, operand⟩
    · exact .inl blank
    · obtain ⟨s, spelled, same⟩ := Operand.exists_spelling operand
      exact .inr ⟨s, segment, hs, r, longest, x, hx, spelled, same⟩

namespace Writes

theorem mem_operands (h : read t = .ok c) (written : Writes t s o) : o ∈ c.operands := by
  obtain ⟨segment, hs, r, longest, x, hx, spelled, operand⟩ := written
  obtain ⟨q, hq, read⟩ := exists_requirement h hs
  obtain ⟨o', side, same⟩ := (longest.read_eq_ok.mp read).operand hx
  rw [Operand.read_eq_operand spelled] at same
  obtain rfl := Except.ok.inj (operand.symm.trans same)
  exact Condition.mem_operands.mpr ⟨q, hq, side⟩

theorem refers (written : Writes t s o) : s.Refers o := by
  obtain ⟨_, _, _, _, x, _, spelled, operand⟩ := written
  exact (Operand.Spelling.shape_of_scan (Operand.Spelling.read?_eq_some.mp spelled)).refers operand

end Writes

theorem addressesOf_eq (groups : List Group) : addressesOf groups =
    ((ofGroups groups).operands.filterMap Operand.address?).eraseDups := by
  have sides : Requirement.addresses = fun q => [q.left, q.right].filterMap Operand.address? := by
    funext q
    unfold Requirement.addresses
    cases left : q.left.address? <;> cases right : q.right.address? <;> simp [left, right]
  rw [addressesOf, operands, List.filterMap_flatMap, sides]
  rfl

theorem addresses_eq (h : read t = .ok c) :
    c.addresses = (c.operands.filterMap Operand.address?).eraseDups := by
  rw [(read_eq_ok.mp h).2, addressesOf_eq]
  rfl

/-- A blank operand has no address, so that each address is written. -/
theorem mem_addresses (h : read t = .ok c) :
    a ∈ c.addresses ↔ ∃ s o, Writes t s o ∧ o.address? = some a := by
  rw [addresses_eq h, List.mem_eraseDups, List.mem_filterMap]
  constructor
  · rintro ⟨o, member, found⟩
    rcases exists_writes h member with rfl | ⟨s, written⟩
    · exact absurd found (by simp [Operand.blank, Operand.address?, Operand.refersToMemory,
        Kind.readsMemory])
    · exact ⟨s, o, written, found⟩
  · rintro ⟨s, o, written, found⟩
    exact ⟨o, written.mem_operands h, found⟩

/-- An address is the value of an operand that is written with a size, or with the mark of a memory
kind in front of a literal. Behind a size it is wide; a literal need not be a number. -/
theorem addresses_sized_or_marked (h : read t = .ok c) (a : Text) :
    (a ∈ c.addresses ↔ a ≠ [] ∧ ∃ s o, Writes t s o ∧ o.value = a ∧
      (s.IsSized ∨ s.IsMarkedLiteral)) ∧
    (∀ s o, Writes t s o → o ∈ c.operands ∧ (o.size ≠ none ↔ s.IsSized) ∧
      (s.IsSized → o.value = [] ∨ Payload.IsWide o.value)) ∧
    ((∀ s o, Writes t s o → ¬ s.IsMarkedLiteral) → a ∈ c.addresses → Payload.IsWide a) := by
  have reported : a ∈ c.addresses ↔ a ≠ [] ∧ ∃ s o, Writes t s o ∧ o.value = a ∧
      (s.IsSized ∨ s.IsMarkedLiteral) := by
    rw [mem_addresses h]
    constructor
    · rintro ⟨s, o, written, found⟩
      obtain ⟨memory, value, nonempty⟩ := Operand.address?_eq_some.mp found
      exact ⟨nonempty, s, o, written, value, written.refers.memory.mp memory⟩
    · rintro ⟨nonempty, s, o, written, value, kind⟩
      have memory := written.refers.memory.mpr kind
      exact ⟨s, o, written, Operand.address?_eq_some.mpr ⟨memory, value, nonempty⟩⟩
  refine ⟨reported, ?_, ?_⟩
  · intro s o written
    exact ⟨written.mem_operands h, written.refers.size, written.refers.wide⟩
  · intro unmarked member
    obtain ⟨nonempty, s, o, written, rfl, kind⟩ := reported.mp member
    have sized := kind.resolve_right (unmarked s o written)
    exact (written.refers.wide sized).resolve_left nonempty

theorem addresses_beside_marked_constant :
    read "0xH1=dtrue".toList = .ok ⟨[[⟨.plain, ⟨.mem, some .bits8, "0x000001".toList⟩, .eq,
      ⟨.delta, none, "true".toList⟩, some 0⟩]], ["0x000001".toList, "true".toList]⟩ ∧
    ∃ s o, Writes "0xH1=dtrue".toList s o ∧ o.value = "true".toList ∧
      (s.IsSized ∨ s.IsMarkedLiteral) := by
  have outcome : read "0xH1=dtrue".toList = .ok ⟨[[⟨.plain, ⟨.mem, some .bits8,
      "0x000001".toList⟩, .eq, ⟨.delta, none, "true".toList⟩, some 0⟩]],
      ["0x000001".toList, "true".toList]⟩ := by decide +kernel
  exact ⟨outcome, ((addresses_sized_or_marked outcome "true".toList).1.mp (by decide)).2⟩

/-- A number behind the mark of a memory kind is an address, though it has no size. -/
theorem not_all_addresses_sized :
    ¬ ∀ (t : Text) (c : Condition), read t = .ok c → ∀ a ∈ c.addresses,
      ∃ o ∈ c.operands, o.size ≠ none ∧ o.value = a := by
  intro sized
  have outcome : read "d5".toList = .ok ⟨[[⟨.plain, ⟨.delta, none, "0x000005".toList⟩, .eq,
      .blank, some 0⟩]], ["0x000005".toList]⟩ := by decide +kernel
  obtain ⟨o, member, size, _⟩ := sized _ _ outcome "0x000005".toList (by decide)
  have unsized : ∀ o ∈ operands ⟨[[⟨.plain, ⟨.delta, none, "0x000005".toList⟩, .eq, .blank,
      some 0⟩]], ["0x000005".toList]⟩, o.size = none := by decide
  exact size (unsized o member)

end Condition
end MemLogic
