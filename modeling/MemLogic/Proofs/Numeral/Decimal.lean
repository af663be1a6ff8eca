import MemLogic.Proofs.Numeral
import MemLogic.Proofs.Operand.Literal
import Mathlib.Data.List.Induction

/-! Numbers in base 10: the rows of digits that spell a number are its digits behind zeros. -/

namespace MemLogic.Numeral
open Text

/-- The decimal digits of a number, behind any number of zeros. -/
def IsDecimalText (n : Nat) (t : Text) : Prop :=
  ∃ zeros, t = List.replicate zeros '0' ++ natural n

theorem ofDigits_digit (t : Text) : ofDigits (t.map digit) = Nat.ofDigitChars 10 t 0 := by
  rw [ofDigits, List.foldl_map, Nat.ofDigitChars_eq_foldl]
  rfl

theorem ofDigits_concat (t : Text) (d : Char) :
    ofDigits ((t ++ [d]).map digit) = 10 * ofDigits (t.map digit) + digit d := by
  simp [ofDigits]

theorem digitChar_digit {d : Char} (h : d.isDigit) : digit d < 10 ∧ (digit d).digitChar = d := by
  have all : ∀ n < 10, n.digitChar = Char.ofNat (n + '0'.toNat) := by decide
  simp only [Char.isDigit, Bool.and_eq_true, decide_eq_true_eq] at h
  have least : '0'.toNat ≤ d.toNat := h.1
  have most : d.toNat ≤ '0'.toNat + 9 := h.2
  have small : digit d < 10 := by
    unfold digit
    omega
  refine ⟨small, ?_⟩
  rw [all _ small, digit, Nat.sub_add_cancel least, Char.ofNat_toNat]

/-- Appending a digit to the digits of a positive number. -/
theorem natural_append_digit {n : Nat} {d : Char} (positive : 0 < n) (h : d.isDigit) :
    natural (10 * n + digit d) = natural n ++ [d] := by
  obtain ⟨small, same⟩ := digitChar_digit h
  rw [natural, ← Nat.toDigits_append_toDigits (by decide) positive small,
    Nat.toDigits_of_lt_base small, same, natural]

/-- Any row of digits spells exactly one number. -/
theorem isDecimalText_ofDigits {t : Text} (nonempty : t ≠ []) (digits : ∀ d ∈ t, d.isDigit) :
    IsDecimalText (ofDigits (t.map digit)) t := by
  induction t using List.reverseRecOn with
  | nil => exact absurd rfl nonempty
  | append_singleton t d ih =>
    have last : d.isDigit := digits d (by simp)
    obtain ⟨small, same⟩ := digitChar_digit last
    have alone : natural (digit d) = [d] := by rw [natural, Nat.toDigits_of_lt_base small, same]
    by_cases empty : t = []
    · subst empty
      exact ⟨0, by simp [ofDigits, alone]⟩
    · obtain ⟨zeros, split⟩ := ih empty fun c hc => digits c (List.mem_append_left _ hc)
      rw [ofDigits_concat]
      -- the zero in front is a digit of its own only where the number so far is zero
      rcases Nat.eq_zero_or_pos (ofDigits (t.map digit)) with zero | positive
      · rw [zero] at split ⊢
        have front : t = List.replicate (zeros + 1) '0' := by
          rw [split, List.replicate_succ']
          rfl
        exact ⟨zeros + 1, by rw [Nat.mul_zero, Nat.zero_add, alone, ← front]⟩
      · exact ⟨zeros, by rw [natural_append_digit positive last, ← List.append_assoc, ← split]⟩

/-- The texts of a number are the rows of digits whose value it is. -/
theorem isDecimalText_iff {n : Nat} {t : Text} :
    IsDecimalText n t ↔ t ≠ [] ∧ (∀ d ∈ t, d.isDigit) ∧ ofDigits (t.map digit) = n := by
  constructor
  · rintro ⟨zeros, rfl⟩
    refine ⟨by simp [natural_ne_nil], ?_, ?_⟩
    · intro d hd
      rcases List.mem_append.mp hd with hd | hd
      · rw [List.eq_of_mem_replicate hd]
        decide
      · exact isDigit_natural n d hd
    · rw [ofDigits_digit, Nat.ofDigitChars_append, Nat.ofDigitChars_replicate_zero, Nat.mul_zero]
      exact Nat.ofDigitChars_ten_toDigits
  · rintro ⟨nonempty, digits, rfl⟩
    exact isDecimalText_ofDigits nonempty digits

end MemLogic.Numeral
