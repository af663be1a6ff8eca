import MemLogic.Proofs.Operand.Values

/-! Well-formed operands: which sizes and values go with which kind, and that a value has no more
signs and dots than one payload can hold. -/

namespace MemLogic
open Text

namespace Operand.Spelling

theorem IsPayload.countP_sign {p : Text} (h : IsPayload p) : p.countP (· ∈ "+-".toList) ≤ 1 := by
  obtain ⟨sign, whole, fraction, rfl, signed, word, dotted⟩ := h.parts
  have free (w : Text) (hw : ∀ c ∈ w, c.isAlphanum) : w.countP (· ∈ "+-".toList) = 0 := by
    have signs : ∀ c ∈ "+-".toList, c.isAlphanum = false := by decide
    apply List.countP_eq_zero.mpr
    intro c hc member
    exact absurd (hw c hc) (by simp [signs c (of_decide_eq_true member)])
  have first : sign.countP (· ∈ "+-".toList) ≤ 1 := by
    rcases signed with rfl | rfl | rfl <;> decide
  have last : fraction.countP (· ∈ "+-".toList) = 0 := by
    rcases dotted with rfl | ⟨w, rfl, word⟩
    · rfl
    · rw [List.countP_cons_of_neg (by decide), free w word]
  rw [List.countP_append, List.countP_append, free whole word, last]
  omega

end Operand.Spelling

namespace Payload
open Operand.Spelling

section Counts
variable {P : Char → Bool} {p v : Text}

/-- Padding consists of digits and the mark in front of them. -/
theorem countP_pad (other : ∀ c, c.isAlphanum → P c = false) (t : Text) :
    (pad t).countP P = t.countP P := by
  have zero : ¬ P '0' = true := by simp [other '0' (by decide)]
  have mark : ¬ P 'x' = true := by simp [other 'x' (by decide)]
  rw [pad, List.countP_cons_of_neg zero, List.countP_cons_of_neg mark, List.leftpad,
    List.countP_append, List.countP_replicate, if_neg zero, Nat.zero_add]

theorem countP_ofNatural (other : ∀ c, c.isAlphanum → P c = false) (n : Nat) :
    (ofNatural n).countP P = 0 := by
  rw [ofNatural, countP_pad other, List.countP_eq_zero]
  intro c hc
  simp [other c (Numeral.isAlphanum_hexadecimal n c hc)]

theorem countP_ofAddress_le (other : ∀ c, c.isAlphanum → P c = false) (p : Text) :
    (ofAddress p).countP P ≤ p.countP P := by
  rcases ofAddress_cases p with ⟨_, empty⟩ | ⟨_, r, suffix, same⟩
  · rw [empty]
    exact Nat.zero_le _
  · rw [same, countP_pad other]
    exact suffix.sublist.countP_le

/-- To make a literal canonical adds letters and digits at most. -/
theorem IsLiteral.countP_le (other : ∀ c, c.isAlphanum → P c = false) (h : IsLiteral p v) :
    v.countP P ≤ p.countP P := by
  cases h with
  | empty => exact Nat.zero_le _
  | verbatim => exact Nat.le_refl _
  | hexadecimal => exact countP_ofAddress_le other p
  | decimal =>
    rw [countP_ofNatural other]
    exact Nat.zero_le _
  | other => exact Nat.le_of_eq (countP_pad other p)

end Counts

/-- Letters and digits of ASCII, with one sign and one dot at most. -/
structure IsTidy (v : Text) : Prop where
  chars : ∀ c ∈ v, c.isAlphanum ∨ c ∈ "+-.".toList
  signs : v.countP (· ∈ "+-".toList) ≤ 1
  dots : v.count '.' ≤ 1

/-- What no letter or digit adds to is not more in the value than in the payload. -/
theorem isTidy_of_payload {p v : Text} (payload : IsPayload p) (chars : IsValueText v)
    (fewer : ∀ P : Char → Bool, (∀ c, c.isAlphanum → P c = false) → v.countP P ≤ p.countP P) :
    IsTidy v where
  chars := chars
  signs := by
    refine Nat.le_trans (fewer _ ?_) payload.countP_sign
    have signs : ∀ c ∈ "+-".toList, c.isAlphanum = false := by decide
    intro c letter
    rw [decide_eq_false_iff_not]
    exact fun member => absurd letter (by simp [signs c member])
  dots := by
    refine Nat.le_trans (fewer (· == '.') ?_) payload.count_dot
    intro c letter
    rw [beq_eq_false_iff_ne]
    rintro rfl
    exact absurd letter (by decide)

theorem isPayload_word {w : Text} (h : ∀ c ∈ w, c.isAlphanum) : IsPayload w :=
  ⟨[], w, [], by simp, .inl rfl, h, .inl rfl⟩

theorem IsTidy.not_mem {v : Text} (h : IsTidy v) {d : Char} (hd : d.isAlphanum = false)
    (other : d ∉ "+-.".toList) : d ∉ v := by
  intro member
  rcases h.chars d member with letter | mark
  · exact absurd letter (by simp [hd])
  · exact other mark

end Payload

namespace Operand
open Payload Spelling

theorem Arises.isTidy {o : Operand} (h : Arises o) : IsTidy o.value := by
  have kept {p : Text} (payload : IsPayload p) : IsTidy p :=
    isTidy_of_payload payload (isValueText_of_isPayload payload) fun _ _ => Nat.le_refl _
  have address {p : Text} (payload : IsPayload p) : IsTidy (ofAddress p) :=
    isTidy_of_payload payload (isValueText_ofAddress (isValueText_of_isPayload payload))
      fun _ other => countP_ofAddress_le other p
  cases h with
  | recalled => exact kept (isPayload_word (by simp))
  | named _ word => exact kept (isPayload_word word)
  | constant h => exact kept (isPayload_word (isAlphanum_of_isConstant h))
  | floatText payload => exact kept payload
  | literal payload literal =>
    exact isTidy_of_payload payload
      (isValueText_of_isLiteral (isValueText_of_isPayload payload) literal)
      fun _ other => literal.countP_le other
  | value payload => exact address payload
  | address payload => exact address payload

/-- What kind, size and value of an operand have to do with each other. -/
structure WellFormed (o : Operand) : Prop where
  recalled : o.kind = .recalled → o.size = none ∧ o.value = []
  named : o.kind = .named → o.size = none ∧ o.value ≠ [] ∧ (∀ c ∈ o.value, c.isAlphanum) ∧
    lower o.value ≠ "recall".toList
  unsized : o.kind = .value → o.size = none
  mem : o.kind = .mem → ∃ size, o.size = some size ∧ size.readsFloat = false
  sized : o.size ≠ none → o.kind ∈ [.mem, .delta, .prior, .bcd, .inverted, .float] ∧
    (o.value = [] ∨ IsWide o.value)
  tidy : IsTidy o.value

theorem mem_of_readsMemory {kind : Kind} (h : kind.readsMemory) :
    kind ∈ [.mem, .delta, .prior, .bcd, .inverted, .float] := by
  have all : ∀ k ∈ Kind.all, k.readsMemory →
      k ∈ [.mem, .delta, .prior, .bcd, .inverted, .float] := by decide
  exact all kind (Kind.mem_all kind) h

theorem Arises.wellFormed {o : Operand} (h : Arises o) : WellFormed o := by
  have tidy := h.isTidy
  cases h with
  | recalled => exact ⟨by simp, by simp, by simp, by simp, by simp, tidy⟩
  | named nonempty word other =>
    exact ⟨by simp, fun _ => ⟨rfl, nonempty, word, other⟩, by simp, by simp, by simp, tidy⟩
  | constant => exact ⟨by simp, by simp, by simp, by simp, by simp, tidy⟩
  | floatText => exact ⟨by simp, by simp, by simp, by simp, by simp, tidy⟩
  | @literal kind _ _ _ _ unsized =>
    have other : kind ≠ .recalled ∧ kind ≠ .named ∧ kind ≠ .mem := by
      refine ⟨?_, ?_, ?_⟩ <;> rintro rfl <;> exact absurd unsized (by decide)
    exact ⟨by simp [other], by simp [other], by simp, by simp [other], by simp, tidy⟩
  | value => exact ⟨by simp, by simp, by simp, by simp, by simp, tidy⟩
  | @address kind size p _ memory mem =>
    have other : kind ≠ .recalled ∧ kind ≠ .named ∧ kind ≠ .value := by
      refine ⟨?_, ?_, ?_⟩ <;> rintro rfl <;> exact absurd memory (by decide)
    exact ⟨by simp [other], by simp [other], by simp [other], fun same => ⟨size, rfl, mem same⟩,
      fun _ => ⟨mem_of_readsMemory memory, ofAddress_nil_or_wide p⟩, tidy⟩

theorem wellFormed_blank : WellFormed blank :=
  (Arises.value (isPayload_word (w := []) (by simp))).wellFormed

end Operand
end MemLogic
