import MemLogic.Proofs.Condition.Addresses
import MemLogic.Proofs.Condition.Concatenation

/-! Collection of addresses: one pass over the operands lists each address where it is first seen,
and what comes later in the groups moves nothing that is listed. -/

namespace MemLogic.Condition

/-- Notes the address of an operand that has one. -/
def noteOperand (seen : List Text) (o : Operand) : List Text :=
  match o.address? with
  | some a => note seen a
  | none => seen

def noteRequirement (seen : List Text) (q : Requirement) : List Text :=
  noteOperand (noteOperand seen q.left) q.right

def noteGroup (seen : List Text) (group : Group) : List Text :=
  group.foldl noteRequirement seen

theorem noteRequirement_eq (seen : List Text) (q : Requirement) :
    noteRequirement seen q = q.addresses.foldl note seen := by
  unfold noteRequirement noteOperand Requirement.addresses
  cases q.left.address? <;> cases q.right.address? <;> rfl

/-- Group by group and requirement by requirement, the pass notes the addresses in a row. -/
theorem foldl_noteGroup (groups : List Group) (seen : List Text) :
    groups.foldl noteGroup seen =
      (groups.flatten.flatMap Requirement.addresses).foldl note seen := by
  have step : noteRequirement = fun seen q => q.addresses.foldl note seen := by
    funext seen q
    exact noteRequirement_eq seen q
  rw [List.foldl_flatMap, List.foldl_flatten, ← step]
  rfl

theorem foldl_noteGroup_eq (groups : List Group) :
    groups.foldl noteGroup [] = addressesOf groups := by
  rw [foldl_noteGroup, foldl_note, addressesOf]

/-- The number of operands before the first that has the address. -/
def firstMention (groups : List Group) (a : Text) : Nat :=
  (ofGroups groups).operands.findIdx (·.address? == some a)

/-- The values of the operands that refer to memory, each once and in the order in which they are
first mentioned. -/
structure FirstSeen (groups : List Group) (as : List Text) : Prop where
  nodup : as.Nodup
  mem : ∀ a, a ∈ as ↔ a ≠ [] ∧ ∃ group ∈ groups, ∃ q ∈ group, ∃ o, (o = q.left ∨ o = q.right) ∧
    o.value = a ∧ o.kind.readsMemory ∧ ¬ (o.kind = .float ∧ o.size = none)
  ordered : as.Pairwise fun a b => firstMention groups a < firstMention groups b

variable {groups wider : List Group} {as bs : List Text}

/-- No other list has the same members in the same order. -/
theorem FirstSeen.unique (h : FirstSeen groups as) (h' : FirstSeen groups bs) : as = bs := by
  have members : ∀ a, a ∈ as ↔ a ∈ bs := fun a => (h.mem a).trans (h'.mem a).symm
  have permuted := (List.perm_ext_iff_of_nodup h.nodup h'.nodup).mpr members
  refine permuted.eq_of_pairwise ?_ h.ordered h'.ordered
  intro a b _ _ before after
  exact absurd before (Nat.lt_asymm after)

theorem refersToMemory_iff (o : Operand) : o.refersToMemory ↔
    o.kind.readsMemory ∧ ¬ (o.kind = .float ∧ o.size = none) := by
  simp [Operand.refersToMemory, Operand.isFloatText, imp_iff_not_or, ← Option.ne_none_iff_isSome]

theorem firstSeen_addressesOf (groups : List Group) : FirstSeen groups (addressesOf groups) where
  nodup := nodup_eraseDups _
  mem a := by
    rw [addressesOf_eq, List.mem_eraseDups, List.mem_filterMap]
    simp only [mem_operands, Operand.address?_eq_some, refersToMemory_iff, List.mem_flatten]
    constructor
    · rintro ⟨o, ⟨q, ⟨group, hg, hq⟩, side⟩, memory, value, nonempty⟩
      exact ⟨nonempty, group, hg, q, hq, o, side, value, memory⟩
    · rintro ⟨nonempty, group, hg, q, hq, o, side, value, memory⟩
      exact ⟨o, ⟨q, ⟨group, hg, hq⟩, side⟩, memory, value, nonempty⟩
  ordered := by
    rw [addressesOf_eq]
    exact pairwise_findIdx_eraseDups Operand.address? (ofGroups groups).operands

/-- Requirements behind those of other groups, in groups of their own or not, leave the listed
addresses in their places. -/
theorem addressesOf_prefix (h : groups.flatten <+: wider.flatten) :
    addressesOf groups <+: addressesOf wider := by
  obtain ⟨more, split⟩ := h
  rw [addressesOf, addressesOf, ← split, List.flatMap_append, eraseDups_append_eq]
  exact List.prefix_append _ _

/-- A requirement that is repeated anywhere behind its first occurrence adds nothing. -/
theorem addressesOf_repeated {xs ys : List Requirement} {q : Requirement}
    (once : groups.flatten = xs ++ ys) (twice : wider.flatten = xs ++ q :: ys) (member : q ∈ xs) :
    addressesOf wider = addressesOf groups := by
  have known : ∀ a ∈ q.addresses, a ∈ xs.flatMap Requirement.addresses :=
    fun a ha => List.mem_flatMap.mpr ⟨q, member, ha⟩
  rw [addressesOf, addressesOf, once, twice, List.flatMap_append, List.flatMap_cons,
    List.flatMap_append, ← List.append_assoc, eraseDups_append_eq (_ ++ _),
    eraseDups_append_of_subset known, ← eraseDups_append_eq]

/-- The addresses of any groups are the non-empty values of the operands that refer to memory, each
once and in the order of first mention, as one pass lists them. Groups behind others add the
addresses that are new; what is added behind or repeated neither removes nor moves one. -/
theorem addressesOf_first_seen (groups : List Group) :
    (∀ as, FirstSeen groups as ↔ as = addressesOf groups) ∧
    groups.foldl noteGroup [] = addressesOf groups ∧
    (∀ more, addressesOf (groups ++ more) =
      addressesOf groups ++ (addressesOf more).filter (· ∉ addressesOf groups)) ∧
    (∀ wider : List Group, groups.flatten <+: wider.flatten →
      addressesOf groups <+: addressesOf wider) ∧
    ∀ (wider : List Group) (xs ys : List Requirement) (q : Requirement),
      groups.flatten = xs ++ ys → wider.flatten = xs ++ q :: ys → q ∈ xs →
        addressesOf wider = addressesOf groups := by
  refine ⟨fun as => ⟨fun seen => seen.unique (firstSeen_addressesOf groups), ?_⟩,
    foldl_noteGroup_eq groups, addressesOf_append groups, fun _ => addressesOf_prefix,
    fun _ _ _ _ => addressesOf_repeated⟩
  rintro rfl
  exact firstSeen_addressesOf groups

end MemLogic.Condition
