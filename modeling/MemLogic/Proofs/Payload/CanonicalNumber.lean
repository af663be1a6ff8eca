import MemLogic.Proofs.Payload.Conversion
import Mathlib.Data.List.Shortlex

/-! Canonical numbers: the form of a number is the only text of its shape that spells the number,
and forms are ordered as the numbers are, the shorter text first. -/

namespace MemLogic.Payload
open Numeral Text
open Operand.Spelling (isHexDigit)

variable {n m : Nat} {x y : Text}

/-- The digits behind `0x` in the form of a number. They are padded to six; where there are more,
none of them is padding. -/
structure CanonicalDigits (n : Nat) (digits : Text) : Prop where
  lowerCase : ∀ d ∈ digits, d ∈ hexDigits
  wide : 6 ≤ digits.length
  value : ofHexadecimal digits = n
  unpadded : 6 < digits.length → digits.head? ≠ some '0'

theorem canonicalDigits_hexadecimal (n : Nat) :
    CanonicalDigits n ((hexadecimal n).leftpad 6 '0') where
  lowerCase := by
    intro d member
    rcases List.mem_append.mp member with padding | digit
    · rw [List.eq_of_mem_replicate padding]
      decide
    · exact mem_hexDigits_hexadecimal n d digit
  wide := by
    rw [List.length_leftpad]
    exact Nat.le_max_left 6 _
  value := by rw [ofHexadecimal_leftpad, ofHexadecimal_hexadecimal]
  unpadded := by
    intro long zero
    rw [List.length_leftpad] at long
    rw [leftpad_of_le (by omega)] at zero
    rcases Nat.eq_zero_or_pos n with rfl | positive
    · exact absurd long (by decide)
    · exact absurd (stopsAt_hexadecimal positive '0' zero) (by decide)

namespace CanonicalDigits

theorem isHexDigit (h : CanonicalDigits n x) : ∀ d ∈ x, isHexDigit d :=
  fun d member => isHexDigit_of_mem (h.lowerCase d member)

theorem lower_eq (h : CanonicalDigits n x) : lower x = x := by
  have same : ∀ d ∈ hexDigits, d.toLower = d := by decide
  rw [lower, List.map_congr_left fun d member => same d (h.lowerCase d member), List.map_id']

/-- The number alone says how many digits there are. -/
theorem length_eq (h : CanonicalDigits n x) : x.length = max 6 (Nat.digits 16 n).length := by
  have counted := length_significant h.isHexDigit
  rw [h.value] at counted
  -- beyond six all digits are significant, and up to six the padding makes up the number
  rcases Nat.lt_or_eq_of_le h.wide with long | short
  · have first : StopsAt (· == '0') x := by
      intro d first
      simpa using fun zero : d = '0' => h.unpadded long (zero ▸ first)
    rw [significant_eq_self first] at counted
    omega
  · have fewer : (significant x).length ≤ x.length := (List.dropWhile_sublist _).length_le
    omega

theorem length_eq_six (h : CanonicalDigits n x) : x.length = 6 ↔ n < 16 ^ 6 := by
  rw [h.length_eq, ← Nat.digits_length_le_iff (by decide) n]
  omega

theorem length_le (hx : CanonicalDigits n x) (hy : CanonicalDigits m y) (le : n ≤ m) :
    x.length ≤ y.length := by
  have digits := Nat.le_length_digits_le 16 n m le
  rw [hx.length_eq, hy.length_eq]
  omega

theorem unique (hx : CanonicalDigits n x) (hy : CanonicalDigits n y) : x = y := by
  have length : x.length = y.length := hx.length_eq.trans hy.length_eq.symm
  have same := lower_eq_of_ofHexadecimal_eq hx.isHexDigit hy.isHexDigit length
    (hx.value.trans hy.value.symm)
  rwa [hx.lower_eq, hy.lower_eq] at same

theorem lt_iff (hx : CanonicalDigits n x) (hy : CanonicalDigits m y) :
    n < m ↔ List.Shortlex (· < ·) x y := by
  have alike (same : x.length = y.length) : n < m ↔ List.Lex (· < ·) x y := by
    rw [← ofHexadecimal_lt_iff hx.lowerCase hy.lowerCase same, hx.value, hy.value]
  constructor
  · intro less
    rcases Nat.lt_or_eq_of_le (hx.length_le hy less.le) with shorter | same
    · exact .of_length_lt shorter
    · exact .of_lex same ((alike same).mp less)
  · intro before
    rcases List.shortlex_def.mp before with shorter | ⟨same, earlier⟩
    · by_contra more
      have longer := hy.length_le hx (Nat.le_of_not_lt more)
      omega
    · exact (alike same).mpr earlier

end CanonicalDigits

/-- Every natural number has a form, whose digits are the only canonical ones of that number: six
where they suffice. Forms tell numbers apart, and a number is smaller exactly where its form is
shorter, or as long and earlier in lexicographic order. -/
theorem ofInteger_canonical (n m : Nat) : ∃ v w digits : Text,
    ofInteger (.ofNat n) = .ok v ∧ ofInteger (.ofNat m) = .ok w ∧ v = '0' :: 'x' :: digits ∧
    (∀ t, CanonicalDigits n t ↔ t = digits) ∧ (digits.length = 6 ↔ n < 16 ^ 6) ∧
    (v = w ↔ n = m) ∧ (n < m ↔ List.Shortlex (· < ·) v w) := by
  have hn := canonicalDigits_hexadecimal n
  have hm := canonicalDigits_hexadecimal m
  refine ⟨ofNatural n, ofNatural m, _, rfl, rfl, rfl, ?_, hn.length_eq_six, ?_, ?_⟩
  · intro t
    constructor
    · intro canonical
      exact canonical.unique hn
    · rintro rfl
      exact hn
  · constructor
    · exact ofNatural_injective
    · intro same
      rw [same]
  · rw [ofNatural, ofNatural, pad, pad, List.shortlex_cons_iff, List.shortlex_cons_iff]
    exact hn.lt_iff hm

/-- The last form of six digits and the first of seven: without the lengths their order would be
the other way round. -/
example : ofInteger 0xffffff = .ok "0xffffff".toList ∧
    ofInteger 0x1000000 = .ok "0x1000000".toList ∧ "0x1000000".toList < "0xffffff".toList := by
  decide

end MemLogic.Payload
