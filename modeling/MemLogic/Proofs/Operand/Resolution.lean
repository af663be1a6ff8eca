import MemLogic.Proofs.Operand.Shape
import MemLogic.Proofs.Payload

/-! What spelled operands resolve to. A size that was read is known, so the one failure is a decimal
literal of too many digits. -/

namespace MemLogic
namespace Size

/-- A token has only ASCII letters, so that no other letter folds into it. -/
theorem map_foldLetter {k : Text} (h : Text.lower k ∈ Operand.Spelling.sizeTokens) :
    k.map foldLetter = Text.lower k := by
  have ascii : ∀ v ∈ Operand.Spelling.sizeTokens, '\u212a' ∉ v := by decide
  have kelvin : '\u212a'.toLower = '\u212a' := by decide
  apply List.map_congr_left
  intro c hc
  have other : c ≠ '\u212a' := by
    rintro rfl
    have low := List.mem_map_of_mem (f := Char.toLower) hc
    rw [kelvin] at low
    exact ascii _ h low
  simp [foldLetter, other]

theorem lower_token_mem (s : Size) : Text.lower s.token ∈ Operand.Spelling.sizeTokens := by
  have known : ∀ s ∈ all, Text.lower s.token ∈ Operand.Spelling.sizeTokens := by decide
  exact known s (mem_all s)

/-- Letter case does not matter, and a space spells the 16-bit size out. -/
theorem ofToken_eq_ok {k : Text} {s : Size}
    (h : Text.lower k = Text.lower s.token ∨ Text.lower k = "0x ".toList ∧ s = .bits16) :
    ofToken k = .ok s := by
  rcases h with h | ⟨h, rfl⟩
  · rw [ofToken, map_foldLetter (h ▸ lower_token_mem s), h]
    cases s <;> rfl
  · have token : Text.lower k ∈ Operand.Spelling.sizeTokens := by
      rw [h]
      decide
    rw [ofToken, map_foldLetter token, h]
    rfl

/-- Every size token but the lone `h` is that of a size. -/
theorem ofToken_of_mem {k : Text} (h : Text.lower k ∈ Operand.Spelling.sizeTokens)
    (sized : Text.lower k ≠ ['h']) : ∃ s, ofToken k = .ok s := by
  have known : ∀ v ∈ Operand.Spelling.sizeTokens, v ≠ ['h'] →
      v = "0x ".toList ∨ ∃ s ∈ all, v = Text.lower s.token := by decide
  rcases known _ h sized with spaced | ⟨s, _, same⟩
  · exact ⟨.bits16, ofToken_eq_ok (.inr ⟨spaced, rfl⟩)⟩
  · exact ⟨s, ofToken_eq_ok (.inl same)⟩

end Size

namespace Operand.Spelling

theorem plainOperand_sized (m : Option Modifier) (size : Size) (p : Text) :
    ∃ o, plainOperand m (some size) p = .ok o := by
  cases m with
  | none => exact ⟨_, rfl⟩
  | some m => cases m <;> exact ⟨_, rfl⟩

theorem plainOperand_unsized {m : Option Modifier} {p : Text} {e : Error}
    (h : plainOperand m none p = .error e) : m ≠ some .float ∧ Payload.ofLiteral p = .error e := by
  have literal : ∀ f : Text → Operand, (Payload.ofLiteral p).map f = .error e →
      Payload.ofLiteral p = .error e := by
    intro f hf
    cases ho : Payload.ofLiteral p with
    | error e' =>
      rw [ho] at hf
      simpa [Except.map] using hf
    | ok v =>
      rw [ho] at hf
      exact absurd hf (by simp [Except.map])
  cases m with
  | none => exact ⟨by simp, literal _ h⟩
  | some m =>
    cases m with
    | float => exact absurd h (by simp [plainOperand])
    | _ => exact ⟨by simp, literal _ h⟩

/-- Only a literal can fail to resolve. -/
theorem Shape.operand_error {t : Text} {s : Spelling} {e : Error} (shape : Shape t s)
    (h : s.operand = .error e) : ∃ m p, s = .plain m [] p ∧ m ≠ some .float ∧
      Payload.ofLiteral p = .error e := by
  cases shape with
  | braced nonempty word =>
    unfold ofName at h
    split at h <;> exact absurd h (by simp [operand])
  | constant => exact absurd h (by simp [operand])
  | @plain m x k p mark size payload =>
    simp only [operand] at h
    split at h
    · rename_i unsized
      subst unsized
      exact ⟨m, p, rfl, plainOperand_unsized h⟩
    · rename_i nonempty
      have token := size.resolve_left nonempty
      split at h
      · exact absurd h (by simp)
      · rename_i sized
        obtain ⟨known, hk⟩ := Size.ofToken_of_mem token sized
        obtain ⟨o, ho⟩ := plainOperand_sized m known p
        rw [hk] at h
        exact absurd (ho.symm.trans h) (by simp)

theorem Shape.operand_tooManyDigits {t : Text} {s : Spelling} {e : Error} (shape : Shape t s)
    (h : s.operand = .error e) : ∃ n, Numeral.maxDigits < n ∧ e = .tooManyDigits n := by
  obtain ⟨m, p, _, _, literal⟩ := shape.operand_error h
  obtain ⟨digits, _, long, rfl⟩ := Payload.ofLiteral_error literal
  exact ⟨_, long, rfl⟩

end Operand.Spelling

namespace Operand

theorem read_eq_operand {t : Text} {s : Spelling} (h : Spelling.read? t = some s) :
    read t = s.operand := by
  rw [read, h]

/-- A text is refused as an operand for its shape alone. -/
theorem read_eq_noShape {t segment : Text} :
    read t = .error (.noShape segment) ↔ Spelling.read? t = none ∧ segment = t := by
  cases h : Spelling.read? t with
  | none =>
    simp only [read, h, Except.error.injEq, Error.noShape.injEq, true_and]
    exact eq_comm
  | some s =>
    rw [read_eq_operand h]
    constructor
    · intro fails
      obtain ⟨n, _, other⟩ :=
        (Spelling.shape_of_scan (Spelling.read?_eq_some.mp h)).operand_tooManyDigits fails
      exact absurd other (by simp)
    · rintro ⟨fails, _⟩
      exact absurd fails (by simp)

end Operand

end MemLogic
