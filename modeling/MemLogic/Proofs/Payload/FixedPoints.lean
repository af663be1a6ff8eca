import MemLogic.Proofs.Numeral.Hexadecimal
import MemLogic.Proofs.Operand.Literal

/-! Fixed points: the canonical payloads are those that stay as they are, however they came about,
and short hexadecimal payloads come together where only zeros in front tell them apart. -/

namespace MemLogic.Payload
open Numeral
open Operand.Spelling (isHexDigit)

variable {t : Text}

theorem IsWide.hasHexMark (h : IsWide t) : Payload.hasHexMark t := by
  obtain ⟨r, rfl, _⟩ := h
  rfl

/-- The mark is dropped and put back, and nothing is left to pad. -/
theorem IsWide.ofAddress_eq (h : IsWide t) : ofAddress t = t := by
  have marked := h.hasHexMark
  obtain ⟨r, rfl, wide⟩ := h
  rw [ofAddress, if_neg (List.cons_ne_nil _ _), if_pos marked, List.drop_succ_cons,
    List.drop_succ_cons, List.drop_zero, pad, leftpad_of_le wide]

theorem ofAddress_eq_self : ofAddress t = t ↔ t = [] ∨ IsWide t := by
  constructor
  · intro fixed
    have form := ofAddress_nil_or_wide t
    rwa [fixed] at form
  · rintro (rfl | wide)
    · rfl
    · exact wide.ofAddress_eq

/-- The literals that stay as they are: those without a text, padded ones and those that are kept
as they are written. -/
theorem ofLiteral_eq_self : ofLiteral t = .ok t ↔
    t = [] ∨ IsWide t ∨ isConstant t ∨ '.' ∈ t ∨ t.head? = some '-' := by
  constructor
  · intro fixed
    exact (isLiteral_of_ofLiteral fixed).wide_or_kept
  · intro form
    unfold ofLiteral
    split
    · rename_i missing
      rw [missing]
    · rename_i present
      -- a padded text with a dot in it is kept as written, so the form cannot decide the case
      split
      · rfl
      · rename_i changed
        have wide : IsWide t := by
          simp only [Bool.or_eq_true, List.contains_iff_mem, beq_iff_eq, or_assoc] at changed
          exact (form.resolve_left present).resolve_right changed
        rw [if_pos wide.hasHexMark, wide.ofAddress_eq]

/-- Canonical payloads are fixed. Making an address canonical a second time changes nothing, and
neither does it with a literal; one that begins with `0x` and has no dot is a canonical address as
well. Payloads of one to six hexadecimal digits have one canonical form exactly where they agree
without the zeros in front. -/
theorem canonical_fixed (t : Text) :
    ofAddress (ofAddress t) = ofAddress t ∧
    (∀ v, ofLiteral t = .ok v → ofLiteral v = .ok v ∧
      (['0', 'x'] <+: v → '.' ∉ v → ofAddress v = v)) ∧
    ∀ x y : Text, x ≠ [] → y ≠ [] → (∀ c ∈ x, isHexDigit c) → (∀ c ∈ y, isHexDigit c) →
      x.length ≤ 6 → y.length ≤ 6 →
      (ofAddress x = ofAddress y ↔ significant x = significant y) := by
  refine ⟨ofAddress_eq_self.mpr (ofAddress_nil_or_wide t), ?_, ?_⟩
  · intro v read
    have literal := isLiteral_of_ofLiteral read
    refine ⟨ofLiteral_eq_self.mpr literal.wide_or_kept, ?_⟩
    intro mark dotless
    exact (literal.isWide mark dotless).ofAddress_eq
  · intro x y hx hy hexX hexY shortX shortY
    rw [ofAddress_hex hx hexX, ofAddress_hex hy hexY, ← leftpad_eq_leftpad_iff shortX shortY]
    simp [pad]

/-- Of a doubled mark the first is dropped, and the second is fixed as if it were digits; three in
another script becomes a text that is fixed as a literal and as an address; and zeros in front make
no difference where letter case does. -/
theorem canonical_fixed_doubled_mark :
    ofAddress "0x0x12".toList = "0x000x12".toList ∧
    ofAddress "0x000x12".toList = "0x000x12".toList ∧
    ofLiteral "+٣\n".toList = .ok "0x000003".toList ∧
    ofLiteral "0x000003".toList = .ok "0x000003".toList ∧
    ofAddress "0x000003".toList = "0x000003".toList ∧
    ofAddress "0A".toList = ofAddress "000A".toList ∧
    ofAddress "0A".toList ≠ ofAddress "0a".toList := by
  have doubled : ofAddress "0x0x12".toList = "0x000x12".toList := by decide
  have three : ofLiteral "+٣\n".toList = .ok "0x000003".toList := by decide +kernel
  obtain ⟨address, _, apart⟩ := canonical_fixed "0x0x12".toList
  obtain ⟨_, literal, _⟩ := canonical_fixed "+٣\n".toList
  obtain ⟨again, asAddress⟩ := literal _ three
  rw [doubled] at address
  refine ⟨doubled, address, three, again, asAddress (by decide) (by decide), ?_, ?_⟩
  · exact (apart _ _ (by decide) (by decide) (by decide) (by decide) (by decide) (by decide)).mpr
      (by decide)
  · rw [Ne, apart _ _ (by decide) (by decide) (by decide) (by decide) (by decide) (by decide)]
    decide

end MemLogic.Payload
