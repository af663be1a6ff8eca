import MemLogic.Proofs.Numeral.Decimal
import MemLogic.Proofs.Operand.Denotation
import MemLogic.Proofs.Payload.Conversion

/-! Numbers as operands: decimal digits and hexadecimal ones, behind whichever mark, give one
operand for each number, and different operands for different numbers. -/

namespace MemLogic.Operand
open Text Spelling Numeral

/-- The value that a number is. -/
def ofNatural (n : Nat) : Operand :=
  ⟨.value, none, Payload.ofNatural n⟩

/-- Behind a decimal mark the size only says that the digits are hexadecimal. -/
theorem read_decimal_sized {mark token digits : Text} {size : Size} (marked : lower mark = ['v'])
    (sized : lower token = lower size.token ∨ lower token = "0x ".toList ∧ size = .bits16)
    (nonempty : digits ≠ []) (hex : ∀ c ∈ digits, isHexDigit c) :
    read (mark ++ (token ++ digits)) = .ok ⟨.value, none, Payload.pad digits⟩ := by
  obtain ⟨known, other⟩ := lower_token_known sized
  have present : token ≠ [] := lower_eq_nil.not.mp (sizeTokens_ne_nil _ known)
  have mark : IsMark (some .decimal) mark := isMark_of_lower rfl marked
  rw [read_sized mark known (by simp) hex, operand, if_neg present, if_neg other,
    Size.ofToken_eq_ok sized, ← Payload.ofAddress_hex nonempty hex]
  rfl

/-- A number in decimal digits, and in hexadecimal ones where a mark says so. -/
def numberSpellings (n : Nat) (decimal : Text) : List Text :=
  [decimal, '+' :: decimal, 'v' :: decimal, 'v' :: '+' :: decimal, 'h' :: hexadecimal n,
    'v' :: ("0x".toList ++ hexadecimal n), 'v' :: ("0x ".toList ++ hexadecimal n)]

theorem read_decimalText {n : Nat} {decimal : Text} (spelt : IsDecimalText n decimal)
    (short : decimal.length ≤ maxDigits) (mark sign : Text)
    (marked : mark = [] ∨ lower mark = ['v']) (signed : sign = [] ∨ sign = ['+']) :
    read (mark ++ (sign ++ decimal)) = .ok (ofNatural n) := by
  obtain ⟨nonempty, digit, rfl⟩ := isDecimalText_iff.mp spelt
  exact (Denotes.decimal marked signed nonempty digit short).read_eq_ok

theorem read_numberSpelling {n : Nat} {decimal t : Text} (spelt : IsDecimalText n decimal)
    (short : decimal.length ≤ maxDigits) (h : t ∈ numberSpellings n decimal) :
    read t = .ok (ofNatural n) := by
  have nonempty := hexadecimal_ne_nil n
  have hex := isHexDigit_hexadecimal n
  have legacy : lower ['h'] = ['h'] := rfl
  have marked : lower ['v'] = ['v'] := rfl
  have sized (token : Text) (known : lower token = lower Size.bits16.token ∨
      lower token = "0x ".toList ∧ Size.bits16 = .bits16) :
      read ('v' :: (token ++ hexadecimal n)) = .ok (ofNatural n) :=
    read_decimal_sized marked known nonempty hex
  simp only [numberSpellings, List.mem_cons, List.not_mem_nil, or_false] at h
  rcases h with rfl | rfl | rfl | rfl | rfl | rfl | rfl
  · exact read_decimalText spelt short [] [] (.inl rfl) (.inl rfl)
  · exact read_decimalText spelt short [] ['+'] (.inl rfl) (.inr rfl)
  · exact read_decimalText spelt short ['v'] [] (.inr marked) (.inl rfl)
  · exact read_decimalText spelt short ['v'] ['+'] (.inr marked) (.inr rfl)
  · exact (Denotes.hexadecimal legacy nonempty hex).read_eq_ok
  · exact sized "0x".toList (.inl rfl)
  · exact sized "0x ".toList (.inr ⟨rfl, rfl⟩)

/-- All spellings of a number are read as one value with no size and no address, and those of two
numbers are read as the same only if the numbers are. -/
theorem read_numberSpellings {n m : Nat} {d e : Text} (first : IsDecimalText n d)
    (second : IsDecimalText m e) (short : d.length ≤ maxDigits ∧ e.length ≤ maxDigits) :
    (∀ t ∈ numberSpellings n d, read t = .ok (ofNatural n)) ∧ (ofNatural n).address? = none ∧
      ∀ t ∈ numberSpellings n d, ∀ u ∈ numberSpellings m e, read t = read u ↔ n = m := by
  refine ⟨fun t ht => read_numberSpelling first short.1 ht, rfl, ?_⟩
  intro t ht u hu
  rw [read_numberSpelling first short.1 ht, read_numberSpelling second short.2 hu]
  constructor
  · intro same
    exact Payload.ofNatural_injective (congrArg Operand.value (Except.ok.inj same))
  · rintro rfl
    rfl

/-- Zeros in front, digits that are letters of marks, and a number wider than the padding. -/
theorem read_numberSpellings_bfd :
    numberSpellings 3069 "003069".toList = ["003069", "+003069", "v003069", "v+003069", "hbfd",
      "v0xbfd", "v0x bfd"].map String.toList ∧
    (∀ t ∈ numberSpellings 3069 "003069".toList,
      read t = .ok ⟨.value, none, "0x000bfd".toList⟩) ∧
    ∀ t ∈ numberSpellings 3069 "003069".toList,
      ∀ u ∈ numberSpellings 268435455 "268435455".toList, read t ≠ read u := by
  have first : IsDecimalText 3069 "003069".toList := ⟨2, by decide⟩
  have second : IsDecimalText 268435455 "268435455".toList := ⟨0, by decide⟩
  obtain ⟨same, _, apart⟩ := read_numberSpellings first second (by decide)
  refine ⟨by decide, same, fun t ht u hu equal => ?_⟩
  exact absurd ((apart t ht u hu).mp equal) (by decide)

end MemLogic.Operand
