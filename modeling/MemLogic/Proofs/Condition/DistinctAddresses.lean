import MemLogic.Proofs.Condition.Addresses
import MemLogic.Proofs.FirstOccurrences
import MemLogic.Proofs.Numeral.Hexadecimal

/-! Distinct addresses: each is listed once as a text. One number can still be listed as several
texts, which then differ in letter case or in leading zeros beyond the padding. -/

namespace MemLogic
open Numeral Text
open Operand.Spelling (isHexDigit)

/-- A literal of hexadecimal digits behind `0x` is padded, as it has no dot and no sign. -/
theorem Payload.IsLiteral.six_le {p digits : Text} (h : IsLiteral p ('0' :: 'x' :: digits))
    (hex : ∀ d ∈ digits, isHexDigit d) : 6 ≤ digits.length := by
  have dotless : '.' ∉ '0' :: 'x' :: digits := by
    simpa using fun inside : '.' ∈ digits => absurd (hex '.' inside) (by decide)
  obtain ⟨r, same, wide⟩ := h.isWide ⟨digits, rfl⟩ dotless
  obtain rfl : digits = r := by simpa using same
  exact wide

namespace Condition

variable {t a b : Text} {c : Condition}

theorem nodup_addresses (h : read t = .ok c) : c.addresses.Nodup := by
  rw [(read_eq_ok.mp h).2]
  exact nodup_eraseDups _

theorem six_le_of_mem_addresses (h : read t = .ok c) {digits : Text}
    (member : '0' :: 'x' :: digits ∈ c.addresses) (hex : ∀ d ∈ digits, isHexDigit d) :
    6 ≤ digits.length := by
  obtain ⟨s, o, written, found⟩ := (mem_addresses h).mp member
  obtain ⟨memory, value, nonempty⟩ := Operand.address?_eq_some.mp found
  rcases written.refers.memory.mp memory with sized | marked
  · rcases written.refers.wide sized with empty | ⟨r, same, wide⟩
    · exact absurd (value.symm.trans empty) nonempty
    · obtain rfl : digits = r := by simpa using value.symm.trans same
      exact wide
  · obtain ⟨p, literal⟩ := written.refers.literal marked
    rw [value] at literal
    exact literal.six_le hex

/-- Addresses at different positions are different texts. Where both are hexadecimal and denote one
number, they differ in letter case alone, or the longer has more than six digits. -/
theorem addresses_distinct (h : read t = .ok c) {i j : Nat} (apart : i ≠ j)
    (first : c.addresses[i]? = some a) (second : c.addresses[j]? = some b) :
    a ≠ b ∧ ∀ x y : Text, a = '0' :: 'x' :: x → b = '0' :: 'x' :: y →
      (∀ d ∈ x, isHexDigit d) → (∀ d ∈ y, isHexDigit d) →
        6 ≤ x.length ∧ 6 ≤ y.length ∧
        (ofHexadecimal x = ofHexadecimal y ↔ lower (significant x) = lower (significant y)) ∧
        (ofHexadecimal x = ofHexadecimal y →
          x ≠ y ∧ lower x = lower y ∨ x.length ≠ y.length ∧ 6 < max x.length y.length) := by
  obtain ⟨hi, ha⟩ := List.getElem?_eq_some_iff.mp first
  obtain ⟨hj, hb⟩ := List.getElem?_eq_some_iff.mp second
  have differ : a ≠ b := by
    rw [← ha, ← hb]
    exact fun same => apart ((nodup_addresses h).getElem_inj_iff.mp same)
  refine ⟨differ, ?_⟩
  rintro x y rfl rfl hx hy
  have wide := six_le_of_mem_addresses h (List.mem_of_getElem? first) hx
  have wide' := six_le_of_mem_addresses h (List.mem_of_getElem? second) hy
  refine ⟨wide, wide', ofHexadecimal_eq_iff hx hy, ?_⟩
  intro same
  by_cases length : x.length = y.length
  · exact .inl ⟨fun equal => differ (by rw [equal]), lower_eq_of_ofHexadecimal_eq hx hy length same⟩
  · exact .inr ⟨length, by omega⟩

theorem addresses_distinct_in_letter_case :
    read "0xHa=0xHA".toList = .ok ⟨[[⟨.plain, ⟨.mem, some .bits8, "0x00000a".toList⟩, .eq,
      ⟨.mem, some .bits8, "0x00000A".toList⟩, some 0⟩]],
      ["0x00000a".toList, "0x00000A".toList]⟩ ∧
    "0x00000a".toList ≠ "0x00000A".toList ∧
    ("00000a".toList ≠ "00000A".toList ∧ lower "00000a".toList = lower "00000A".toList ∨
      "00000a".toList.length ≠ "00000A".toList.length ∧
        6 < max "00000a".toList.length "00000A".toList.length) := by
  have outcome : read "0xHa=0xHA".toList = .ok ⟨[[⟨.plain, ⟨.mem, some .bits8,
      "0x00000a".toList⟩, .eq, ⟨.mem, some .bits8, "0x00000A".toList⟩, some 0⟩]],
      ["0x00000a".toList, "0x00000A".toList]⟩ := by decide +kernel
  have distinct := @addresses_distinct _ "0x00000a".toList "0x00000A".toList _ outcome 0 1
    (by decide) rfl rfl
  have spelled := distinct.2 "00000a".toList "00000A".toList (by decide) (by decide) (by decide)
    (by decide)
  exact ⟨outcome, distinct.1, spelled.2.2.2 (by decide)⟩

/-- Some number is listed at two positions. -/
def ListedTwice (addresses : List Text) : Prop :=
  ∃ (i j : Nat) (x y : Text), i ≠ j ∧ addresses[i]? = some ('0' :: 'x' :: x) ∧
    addresses[j]? = some ('0' :: 'x' :: y) ∧ (∀ d ∈ x, isHexDigit d) ∧ (∀ d ∈ y, isHexDigit d) ∧
      ofHexadecimal x = ofHexadecimal y

/-- Two letter cases of a digit, and two widths of a number, are listed side by side. -/
theorem listed_twice_in_letter_case_or_width :
    (∃ c, read "0xHa=0xHA".toList = .ok c ∧ ListedTwice c.addresses) ∧
      ∃ c, read "0xH1=0xH0000001".toList = .ok c ∧ ListedTwice c.addresses := by
  have letters : read "0xHa=0xHA".toList = .ok ⟨[[⟨.plain, ⟨.mem, some .bits8,
      "0x00000a".toList⟩, .eq, ⟨.mem, some .bits8, "0x00000A".toList⟩, some 0⟩]],
      ["0x00000a".toList, "0x00000A".toList]⟩ := by decide +kernel
  have widths : read "0xH1=0xH0000001".toList = .ok ⟨[[⟨.plain, ⟨.mem, some .bits8,
      "0x000001".toList⟩, .eq, ⟨.mem, some .bits8, "0x0000001".toList⟩, some 0⟩]],
      ["0x000001".toList, "0x0000001".toList]⟩ := by decide +kernel
  exact ⟨⟨_, letters, 0, 1, "00000a".toList, "00000A".toList, by decide, rfl, rfl, by decide,
    by decide, by decide⟩, _, widths, 0, 1, "000001".toList, "0000001".toList, by decide, rfl, rfl,
    by decide, by decide, by decide⟩

end Condition
end MemLogic
