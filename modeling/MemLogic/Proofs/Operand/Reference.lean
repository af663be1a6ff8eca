import MemLogic.Proofs.Operand.Resolution
import MemLogic.Proofs.Payload

/-! References: which operands have an address, said of their parts. A size makes the payload an
address; so does a mark of a memory kind in front of a literal. -/

namespace MemLogic

namespace Operand

variable {o : Operand} {t a : Text}

theorem address?_eq_some :
    o.address? = some a ↔ o.refersToMemory = true ∧ o.value = a ∧ a ≠ [] := by
  unfold address?
  constructor
  · intro found
    split at found
    · rename_i refers
      obtain rfl := Option.some.inj found
      simpa [and_assoc] using refers
    · exact absurd found (by simp)
  · rintro ⟨refers, rfl, nonempty⟩
    simp [refers, nonempty]

namespace Spelling

/-- A size that makes an address of the payload: neither a lone `h` nor, behind the decimal mark,
any size does. -/
def IsSized : Spelling → Prop
  | plain m k _ => k ≠ [] ∧ Text.lower k ≠ ['h'] ∧ m ≠ some .decimal
  | _ => False

/-- A mark of a memory kind, other than that of floats, and no size behind it. -/
def IsMarkedLiteral : Spelling → Prop
  | plain (some m) k _ => k = [] ∧ m ∈ [.delta, .prior, .bcd, .inverted]
  | _ => False

/-- What the spelling of an operand says of it as a reference. -/
structure Refers (s : Spelling) (o : Operand) : Prop where
  size : o.size ≠ none ↔ s.IsSized
  memory : o.refersToMemory = true ↔ s.IsSized ∨ s.IsMarkedLiteral
  wide : s.IsSized → o.value = [] ∨ Payload.IsWide o.value
  literal : s.IsMarkedLiteral → ∃ p, Payload.IsLiteral p o.value

variable {m : Option Modifier} {k p : Text} {s : Spelling}

/-- No reference at all. -/
theorem refers_neither (unsized : ¬ s.IsSized) (unmarked : ¬ s.IsMarkedLiteral)
    (size : o.size = none) (memory : o.refersToMemory = false) : s.Refers o where
  size := by simp [size, unsized]
  memory := by simp [memory, unsized, unmarked]
  wide := fun sized => absurd sized unsized
  literal := fun marked => absurd marked unmarked

theorem not_isMarkedLiteral (nonempty : k ≠ []) : ¬ (plain m k p).IsMarkedLiteral := by
  cases m <;> simp [IsMarkedLiteral, nonempty]

theorem refers_unsized (h : plainOperand m none p = .ok o) : (plain m [] p).Refers o := by
  have unsized : ¬ (plain m [] p).IsSized := fun sized => sized.1 rfl
  cases m with
  | none =>
    obtain ⟨v, _, rfl⟩ := map_eq_ok.mp h
    exact refers_neither unsized id rfl rfl
  | some m =>
    cases m with
    | float =>
      obtain rfl := Except.ok.inj h
      exact refers_neither unsized (by simp [IsMarkedLiteral]) rfl rfl
    | decimal =>
      obtain ⟨v, _, rfl⟩ := map_eq_ok.mp h
      exact refers_neither unsized (by simp [IsMarkedLiteral]) rfl rfl
    | _ =>
      obtain ⟨v, resolved, rfl⟩ := map_eq_ok.mp h
      exact ⟨by simp [unsized],
        by simp [IsMarkedLiteral, refersToMemory, isFloatText, Modifier.kind, Kind.readsMemory],
        fun sized => absurd sized unsized, fun _ => ⟨p, Payload.isLiteral_of_ofLiteral resolved⟩⟩

theorem refers_sized {size : Size} (nonempty : k ≠ []) (sized : Text.lower k ≠ ['h'])
    (h : plainOperand m (some size) p = .ok o) : (plain m k p).Refers o := by
  by_cases decimal : m = some .decimal
  · subst decimal
    obtain rfl := Except.ok.inj h
    exact refers_neither (by simp [IsSized]) (by simp [IsMarkedLiteral]) rfl rfl
  · have address : o.size = some size ∧ o.kind.readsMemory = true ∧
        o.value = Payload.ofAddress p := by
      cases m with
      | none =>
        obtain rfl := Except.ok.inj h
        refine ⟨rfl, ?_, rfl⟩
        cases size.readsFloat <;> rfl
      | some m =>
        cases m with
        | decimal => exact absurd rfl decimal
        | _ =>
          obtain rfl := Except.ok.inj h
          exact ⟨rfl, rfl, rfl⟩
    obtain ⟨known, memory, value⟩ := address
    have sized : (plain m k p).IsSized := ⟨nonempty, sized, decimal⟩
    have unmarked : ¬ (plain m k p).IsMarkedLiteral := not_isMarkedLiteral nonempty
    refine ⟨by simp [known, sized], by simp [refersToMemory, isFloatText, known, memory, sized], ?_,
      fun marked => absurd marked unmarked⟩
    rw [value]
    exact fun _ => Payload.ofAddress_nil_or_wide p

theorem Shape.refers (shape : Shape t s) (h : s.operand = .ok o) : s.Refers o := by
  cases shape with
  | @braced name =>
    by_cases reserved : Text.lower name = "recall".toList
    · rw [ofName, if_pos reserved] at h ⊢
      obtain rfl := Except.ok.inj h
      exact refers_neither id id rfl rfl
    · rw [ofName, if_neg reserved] at h ⊢
      obtain rfl := Except.ok.inj h
      exact refers_neither id id rfl rfl
  | constant =>
    obtain rfl := Except.ok.inj h
    exact refers_neither id id rfl rfl
  | @plain m _ k p =>
    simp only [operand] at h
    split at h
    · rename_i unsized
      subst unsized
      exact refers_unsized h
    · rename_i nonempty
      split at h
      · rename_i lone
        obtain rfl := Except.ok.inj h
        exact refers_neither (fun sized => sized.2.1 lone) (not_isMarkedLiteral nonempty) rfl rfl
      · rename_i sized
        obtain ⟨size, _, resolved⟩ := bind_eq_ok.mp h
        exact refers_sized nonempty sized resolved

end Spelling

theorem exists_spelling (h : read t = .ok o) :
    ∃ s, Spelling.read? t = some s ∧ s.operand = .ok o := by
  cases found : Spelling.read? t with
  | none =>
    rw [read, found] at h
    exact absurd h (by simp)
  | some s => exact ⟨s, rfl, (read_eq_operand found).symm.trans h⟩

end Operand
end MemLogic
