import MemLogic.Proofs.Numeral
import MemLogic.Proofs.Operand.Resolution
import MemLogic.Proofs.Payload

/-! What operands that were read hold: the characters of their values, and the form of a value
behind a size. -/

namespace MemLogic
open Text

namespace Payload

/-- The characters of payloads and of values. -/
def IsValueText (t : Text) : Prop :=
  ∀ c ∈ t, c.isAlphanum ∨ c ∈ "+-.".toList

theorem IsValueText.append {x y : Text} (hx : IsValueText x) (hy : IsValueText y) :
    IsValueText (x ++ y) := by
  intro c hc
  rcases List.mem_append.mp hc with hc | hc
  · exact hx c hc
  · exact hy c hc

theorem isValueText_of_isPayload {p : Text} (h : Operand.Spelling.IsPayload p) :
    IsValueText p := by
  intro c hc
  rcases h.chars c hc with letter | rfl | rfl | rfl
  · exact .inl letter
  all_goals exact .inr (by decide)

theorem isValueText_pad {t : Text} (h : IsValueText t) : IsValueText (pad t) := by
  intro c hc
  simp only [pad, List.leftpad, List.mem_cons, List.mem_append, List.mem_replicate] at hc
  rcases hc with rfl | rfl | ⟨_, rfl⟩ | hc
  · exact .inl (by decide)
  · exact .inl (by decide)
  · exact .inl (by decide)
  · exact h c hc

theorem isValueText_ofNatural (n : Nat) : IsValueText (ofNatural n) :=
  isValueText_pad fun c hc => .inl (Numeral.isAlphanum_hexadecimal n c hc)

theorem isValueText_ofAddress {p : Text} (h : IsValueText p) : IsValueText (ofAddress p) := by
  rcases ofAddress_cases p with ⟨_, empty⟩ | ⟨_, r, suffix, same⟩
  · simp [empty, IsValueText]
  · rw [same]
    exact isValueText_pad fun c hc => h c (suffix.subset hc)

theorem isValueText_of_isLiteral {p v : Text} (h : IsValueText p) (literal : IsLiteral p v) :
    IsValueText v := by
  cases literal with
  | empty => simp [IsValueText]
  | verbatim => exact h
  | hexadecimal => exact isValueText_ofAddress h
  | decimal => exact isValueText_ofNatural _
  | other => exact isValueText_pad h

end Payload

namespace Operand
open Payload Spelling

/-- What is true of each operand that was read. -/
structure IsRead (o : Operand) : Prop where
  chars : IsValueText o.value
  sized : o.size ≠ none → o.value = [] ∨ ∃ r, o.value = '0' :: 'x' :: r

theorem isRead_unsized {kind : Kind} {v : Text} (h : IsValueText v) : IsRead ⟨kind, none, v⟩ :=
  ⟨h, fun sized => absurd rfl sized⟩

theorem isRead_blank : IsRead blank :=
  isRead_unsized (by simp [IsValueText])

theorem isRead_ofAddress {kind : Kind} {size : Option Size} {p : Text} (h : IsValueText p) :
    IsRead ⟨kind, size, ofAddress p⟩ :=
  ⟨isValueText_ofAddress h, fun _ =>
    (ofAddress_nil_or_wide p).imp id fun ⟨r, same, _⟩ => ⟨r, same⟩⟩

/-- The operands that are read, by what is written for them: a payload becomes an address behind a
size, a literal without one, and stays as it is behind a float mark. -/
inductive Arises : Operand → Prop where
  | recalled : Arises ⟨.recalled, none, []⟩
  | named {name : Text} (nonempty : name ≠ []) (word : ∀ c ∈ name, c.isAlphanum)
      (other : lower name ≠ "recall".toList) : Arises ⟨.named, none, name⟩
  | constant {w : Text} (h : isConstant w) : Arises ⟨.value, none, w⟩
  | floatText {p : Text} (payload : IsPayload p) : Arises ⟨.float, none, p⟩
  | literal {kind : Kind} {p v : Text} (payload : IsPayload p) (literal : IsLiteral p v)
      (unsized : kind ∈ [.value, .delta, .prior, .bcd, .inverted]) : Arises ⟨kind, none, v⟩
  | value {p : Text} (payload : IsPayload p) : Arises ⟨.value, none, ofAddress p⟩
  | address {kind : Kind} {size : Size} {p : Text} (payload : IsPayload p)
      (memory : kind.readsMemory) (mem : kind = .mem → size.readsFloat = false) :
      Arises ⟨kind, some size, ofAddress p⟩

theorem arises_of_literal {kind : Kind} {p : Text} {o : Operand} (payload : IsPayload p)
    (unsized : kind ∈ [.value, .delta, .prior, .bcd, .inverted])
    (read : ((ofLiteral p).map fun v => (⟨kind, none, v⟩ : Operand)) = .ok o) : Arises o := by
  obtain ⟨v, resolved, rfl⟩ := map_eq_ok.mp read
  exact .literal payload (isLiteral_of_ofLiteral resolved) unsized

theorem arises_of_plainOperand {m : Option Modifier} {size : Option Size} {p : Text} {o : Operand}
    (payload : IsPayload p) (read : plainOperand m size p = .ok o) : Arises o := by
  cases size with
  | none =>
    cases m with
    | none => exact arises_of_literal payload (by decide) read
    | some m =>
      cases m with
      | float =>
        obtain rfl := Except.ok.inj read
        exact .floatText payload
      | _ => exact arises_of_literal payload (by decide) read
  | some size =>
    cases m with
    | none =>
      obtain rfl := Except.ok.inj read
      cases floating : size.readsFloat with
      | true => exact .address payload rfl (by simp)
      | false => exact .address payload rfl fun _ => floating
    | some m =>
      cases m with
      | decimal =>
        obtain rfl := Except.ok.inj read
        exact .value payload
      | _ =>
        obtain rfl := Except.ok.inj read
        exact .address payload rfl (by simp [Modifier.kind])

theorem Spelling.Shape.arises {t : Text} {s : Spelling} {o : Operand} (shape : Shape t s)
    (read : s.operand = .ok o) : Arises o := by
  cases shape with
  | @braced name nonempty word =>
    unfold ofName at read
    split at read
    · obtain rfl := Except.ok.inj read
      exact .recalled
    · rename_i other
      obtain rfl := Except.ok.inj read
      exact .named nonempty word other
  | constant h =>
    obtain rfl := Except.ok.inj read
    exact .constant h
  | plain mark size payload =>
    simp only [operand] at read
    split at read
    · exact arises_of_plainOperand payload read
    · split at read
      · obtain rfl := Except.ok.inj read
        exact .value payload
      · obtain ⟨size, _, resolved⟩ := bind_eq_ok.mp read
        exact arises_of_plainOperand payload resolved

theorem arises_of_read {t : Text} {o : Operand} (h : read t = .ok o) : Arises o := by
  unfold read at h
  split at h
  · rename_i s found
    exact (shape_of_scan (read?_eq_some.mp found)).arises h
  · exact absurd h (by simp)

theorem Arises.isRead {o : Operand} (h : Arises o) : IsRead o := by
  cases h with
  | recalled => exact isRead_unsized (by simp [IsValueText])
  | named _ word => exact isRead_unsized fun c hc => .inl (word c hc)
  | constant h => exact isRead_unsized fun c hc => .inl (isAlphanum_of_isConstant h c hc)
  | floatText payload => exact isRead_unsized (isValueText_of_isPayload payload)
  | literal payload literal =>
    exact isRead_unsized (isValueText_of_isLiteral (isValueText_of_isPayload payload) literal)
  | value payload => exact isRead_ofAddress (isValueText_of_isPayload payload)
  | address payload => exact isRead_ofAddress (isValueText_of_isPayload payload)

theorem isRead_of_read {t : Text} {o : Operand} (h : read t = .ok o) : IsRead o :=
  (arises_of_read h).isRead

end Operand
end MemLogic
