import MemLogic.Payload
import MemLogic.Proofs.Outcome

/-! Payloads: the forms that addresses and literals are made canonical in. -/

namespace MemLogic.Payload

/-- `0x` and six characters at least. -/
def IsWide (t : Text) : Prop :=
  ∃ r, t = '0' :: 'x' :: r ∧ 6 ≤ r.length

theorem isWide_pad (t : Text) : IsWide (pad t) := by
  refine ⟨_, rfl, ?_⟩
  rw [List.length_leftpad]
  exact Nat.le_max_left 6 _

/-- An address is missing or padded. -/
theorem ofAddress_cases (p : Text) :
    p = [] ∧ ofAddress p = [] ∨ p ≠ [] ∧ ∃ r, r <:+ p ∧ ofAddress p = pad r := by
  unfold ofAddress
  split
  · rename_i empty
    exact .inl ⟨empty, rfl⟩
  · rename_i nonempty
    split
    · exact .inr ⟨nonempty, p.drop 2, List.drop_suffix 2 p, rfl⟩
    · exact .inr ⟨nonempty, p, List.suffix_rfl, rfl⟩

theorem ofAddress_nil_or_wide (p : Text) : ofAddress p = [] ∨ IsWide (ofAddress p) := by
  rcases ofAddress_cases p with ⟨_, empty⟩ | ⟨_, r, _, same⟩
  · exact .inl empty
  · exact .inr (same ▸ isWide_pad r)

/-- The canonical form of a literal, by what the literal is. -/
inductive IsLiteral (p : Text) : Text → Prop where
  | empty (missing : p = []) : IsLiteral p []
  | verbatim (kept : isConstant p ∨ '.' ∈ p ∨ p.head? = some '-') : IsLiteral p p
  | hexadecimal (mark : hasHexMark p) : IsLiteral p (ofAddress p)
  | decimal {digits : List Nat} {n : Nat} (numeral : decimalDigits? p = some digits)
    (read : Numeral.read digits = .ok n) : IsLiteral p (ofNatural n)
  | other (word : decimalDigits? p = none) : IsLiteral p (pad p)

theorem isLiteral_of_ofLiteral {p v : Text} (h : ofLiteral p = .ok v) : IsLiteral p v := by
  unfold ofLiteral at h
  split at h
  · rename_i missing
    obtain rfl := Except.ok.inj h
    exact .empty missing
  · split at h
    · rename_i kept
      obtain rfl := Except.ok.inj h
      exact .verbatim (by simpa [or_assoc] using kept)
    · split at h
      · rename_i mark
        obtain rfl := Except.ok.inj h
        exact .hexadecimal mark
      · split at h
        · rename_i numeral
          obtain ⟨n, read, rfl⟩ := map_eq_ok.mp h
          exact .decimal numeral read
        · rename_i word
          obtain rfl := Except.ok.inj h
          exact .other word

theorem ofLiteral_error {p : Text} {e : Error} (h : ofLiteral p = .error e) :
    ∃ digits, decimalDigits? p = some digits ∧ Numeral.maxDigits < digits.length ∧
      e = .tooManyDigits digits.length := by
  unfold ofLiteral at h
  split at h
  · exact absurd h (by simp)
  · split at h
    · exact absurd h (by simp)
    · split at h
      · exact absurd h (by simp)
      · split at h
        · rename_i digits found
          refine ⟨digits, found, ?_⟩
          unfold Numeral.read at h
          split at h
          · rename_i long
            exact ⟨long, by simpa [Except.map] using h.symm⟩
          · exact absurd h (by simp [Except.map])
        · exact absurd h (by simp)

/-- A literal that is neither missing nor padded stays as written. -/
theorem IsLiteral.wide_or_kept {p v : Text} (h : IsLiteral p v) :
    v = [] ∨ IsWide v ∨ isConstant v ∨ '.' ∈ v ∨ v.head? = some '-' := by
  cases h with
  | empty => exact .inl rfl
  | verbatim kept => exact .inr (.inr kept)
  | hexadecimal => exact (ofAddress_nil_or_wide p).imp id .inl
  | decimal => exact .inr (.inl (isWide_pad _))
  | other => exact .inr (.inl (isWide_pad _))

/-- A literal that begins with `0x` and has no dot is padded, as no constant begins so. -/
theorem IsLiteral.isWide {p v : Text} (h : IsLiteral p v) (mark : ['0', 'x'] <+: v)
    (dotless : '.' ∉ v) : IsWide v := by
  obtain ⟨r, rfl⟩ := mark
  rcases h.wide_or_kept with empty | wide | constant | dot | minus
  · exact absurd empty (by simp)
  · exact wide
  · have starts : ∀ w ∈ constantWords, w.head? ≠ some '0' := by decide
    have member : Text.lower (['0', 'x'] ++ r) ∈ constantWords := by
      simpa [isConstant] using constant
    exact absurd rfl (starts _ member)
  · exact absurd dot dotless
  · exact absurd minus (by simp)

end MemLogic.Payload
