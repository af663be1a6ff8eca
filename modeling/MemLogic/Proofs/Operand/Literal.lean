import MemLogic.Proofs.Operand.Written
import MemLogic.Proofs.Payload.Numeral

/-! Decimal literals: how their digits are found, what they become, and that they alone can be too
long. -/

namespace MemLogic
open Text

/-- The number that a digit counts for. -/
def Text.digit (d : Char) : Nat :=
  d.toNat - '0'.toNat

theorem Text.isDigit_of_isDecimalDigit {c : Char} (ascii : c.toNat < 128)
    (h : IsDecimalDigit c) : c.isDigit := by
  have low : ∀ n < 128, IsDecimalDigit (Char.ofNat n) → (Char.ofNat n).isDigit := by
    decide +kernel
  have known := low c.toNat ascii
  rw [Char.ofNat_toNat] at known
  exact known h

theorem Text.isDecimalDigit_of_isDigit {d : Char} (h : d.isDigit) : IsDecimalDigit d := by
  simp [IsDecimalDigit, digitValue?_of_isDigit h]

theorem Text.digitValue_of_isDigit {d : Char} (h : d.isDigit) : digitValue d = digit d := by
  simp [digitValue, digitValue?_of_isDigit h, digit]

namespace Payload
open Operand.Spelling

/-- Digits behind an optional sign, and a dot with more of them, each where present. -/
def IsNumber (p : Text) : Prop :=
  ∃ sign whole fraction, p = sign ++ whole ++ fraction ∧
    (sign = [] ∨ sign = ['+'] ∨ sign = ['-']) ∧ (∀ d ∈ whole, d.isDigit) ∧
      (fraction = [] ∨ ∃ w, fraction = '.' :: w ∧ ∀ d ∈ w, d.isDigit) ∧ whole ++ fraction ≠ []

theorem IsNumber.chars {p : Text} (h : IsNumber p) :
    ∀ c ∈ p, c.isDigit ∨ c = '+' ∨ c = '-' ∨ c = '.' := by
  obtain ⟨sign, whole, fraction, rfl, signed, digit, dotted, _⟩ := h
  exact chars_of_parts signed digit dotted

theorem IsNumber.isPayload {p : Text} (h : IsNumber p) : IsPayload p := by
  obtain ⟨sign, whole, fraction, rfl, signed, digit, dotted, _⟩ := h
  have word : ∀ d : Char, d.isDigit → d.isAlphanum := fun d hd => by simp [Char.isAlphanum, hd]
  refine ⟨sign, whole, fraction, rfl, signed, fun d hd => word d (digit d hd), ?_⟩
  rcases dotted with rfl | ⟨w, rfl, last⟩
  · exact .inl rfl
  · exact .inr ⟨w, rfl, fun d hd => word d (last d hd)⟩

theorem IsNumber.ne_nil {p : Text} (h : IsNumber p) : p ≠ [] := by
  obtain ⟨sign, whole, fraction, rfl, _, _, _, nonempty⟩ := h
  rw [List.append_assoc]
  exact fun empty => nonempty (List.append_eq_nil_iff.mp empty).2

theorem IsNumber.start {p : Text} (h : IsNumber p) : ∀ c ∈ p.head?, isLiteralStart c := by
  intro c first
  rcases h.chars c (List.mem_of_mem_head? first) with digit | rfl | rfl | rfl
  · simp [isLiteralStart, digit]
  all_goals rfl

theorem IsNumber.letterless {p : Text} (h : IsNumber p) : ∀ c ∈ p, c.isAlpha = false := by
  intro c hc
  rcases h.chars c hc with digit | rfl | rfl | rfl
  · exact isAlpha_of_isDigit digit
  all_goals decide

theorem IsNumber.hasHexMark {p : Text} (h : IsNumber p) : Payload.hasHexMark p = false :=
  hasHexMark_eq_false h.letterless

theorem ofAddress_hex {p : Text} (nonempty : p ≠ []) (hex : ∀ c ∈ p, isHexDigit c) :
    ofAddress p = pad p := by
  have unmarked : hasHexMark p = false := by
    rw [hasHexMark, Bool.eq_false_iff, ne_eq, List.isPrefixOf_iff_prefix]
    rintro ⟨r, split⟩
    have member : 'x' ∈ lower p := by
      rw [← split]
      simp
    obtain ⟨c, hc, low⟩ := List.mem_map.mp member
    have digit := hex c hc
    rw [isHexDigit, low] at digit
    exact absurd digit (by decide)
  simp [ofAddress, nonempty, unmarked]

theorem isNumber_decimal {sign digits : Text} (signed : sign = [] ∨ sign = ['+'])
    (nonempty : digits ≠ []) (digit : ∀ d ∈ digits, d.isDigit) : IsNumber (sign ++ digits) :=
  ⟨sign, digits, [], by simp, signed.imp_right .inl, digit, .inl rfl, by simpa using nonempty⟩

theorem isNumeral_decimal {sign digits : Text} (signed : sign = [] ∨ sign = ['+'])
    (nonempty : digits ≠ []) (digit : ∀ d ∈ digits, d.isDigit) :
    IsNumeral digits (sign ++ digits) :=
  ⟨nonempty, fun d member => isDecimalDigit_of_isDigit (digit d member),
    sign, [], signed, .inl rfl, by rw [List.append_nil]⟩

/-- Among the characters of payloads only the ASCII digits count as digits. -/
theorem IsNumeral.exists_sign {digits p : Text} (h : IsNumeral digits p)
    (ascii : ∀ c ∈ p, c.toNat < 128) (unbroken : '\n' ∉ p) :
    ∃ sign, p = sign ++ digits ∧ (sign = [] ∨ sign = ['+']) ∧ ∀ d ∈ digits, d.isDigit := by
  obtain ⟨sign, ending, signed, ended, rfl⟩ := h.written
  rcases ended with rfl | rfl
  · rw [List.append_nil] at ascii ⊢
    exact ⟨sign, rfl, signed, fun d member =>
      isDigit_of_isDecimalDigit (ascii d (List.mem_append_right _ member)) (h.decimal d member)⟩
  · exact absurd (by simp) unbroken

theorem ofLiteral_decimal {sign digits : Text} (signed : sign = [] ∨ sign = ['+'])
    (nonempty : digits ≠ []) (digit : ∀ d ∈ digits, d.isDigit) :
    ofLiteral (sign ++ digits) = (Numeral.read (digits.map Text.digit)).map ofNatural := by
  have values : digits.map digitValue = digits.map Text.digit :=
    List.map_congr_left fun d member => digitValue_of_isDigit (digit d member)
  rw [(isNumeral_decimal signed nonempty digit).ofLiteral_eq, values]

end Payload

namespace Operand
open Spelling

/-- Digits behind an optional plus sign, and behind a mark that leaves them a decimal literal. -/
def IsDecimal (digits t : Text) : Prop :=
  ∃ mark sign : Text, (mark = [] ∨ ∃ c : Char, c.toLower ∈ "dpb~v".toList ∧ mark = [c]) ∧
    (sign = [] ∨ sign = ['+']) ∧ digits ≠ [] ∧ (∀ d ∈ digits, d.isDigit) ∧
      t = mark ++ (sign ++ digits)

theorem isMark_iff (x : Text) : (∃ m, m ≠ some Modifier.float ∧ IsMark m x) ↔
    x = [] ∨ ∃ c : Char, c.toLower ∈ "dpb~v".toList ∧ x = [c] := by
  constructor
  · rintro ⟨m, unfloat, mark⟩
    cases m with
    | none => exact .inl mark
    | some m =>
      obtain ⟨c, hc, rfl⟩ := mark
      refine .inr ⟨c, ?_, rfl⟩
      have known : ∀ d ∈ markLetters,
          d ∈ "dpb~v".toList ∨ Modifier.ofChar? d = some .float := by decide
      rcases known _ (toLower_mem_of_ofChar? hc) with h | h
      · exact h
      · rw [ofChar?_toLower, hc] at h
        exact absurd h unfloat
  · rintro (rfl | ⟨c, hc, rfl⟩)
    · exact ⟨none, by simp, rfl⟩
    · have known : ∀ d ∈ "dpb~v".toList, (Modifier.ofChar? d).isSome ∧
          Modifier.ofChar? d ≠ some .float := by decide
      obtain ⟨marked, unfloat⟩ := known _ hc
      rw [ofChar?_toLower] at marked unfloat
      obtain ⟨m, hm⟩ := Option.isSome_iff_exists.mp marked
      exact ⟨some m, hm ▸ unfloat, c, hm, rfl⟩

theorem read_decimal {m : Option Modifier} {x sign digits : Text} (mark : IsMark m x)
    (unfloat : m ≠ some .float) (signed : sign = [] ∨ sign = ['+']) (nonempty : digits ≠ [])
    (digit : ∀ d ∈ digits, d.isDigit) : read (x ++ (sign ++ digits)) =
      (Numeral.read (digits.map Text.digit)).map fun n =>
        ⟨(m.map Modifier.kind).getD .value, none, Payload.ofNatural n⟩ := by
  have number := Payload.isNumber_decimal signed nonempty digit
  rw [read_unsized mark number.isPayload number.ne_nil number.start number.hasHexMark]
  have resolved := Payload.ofLiteral_decimal signed nonempty digit
  cases m with
  | none =>
    simp only [plainOperand, resolved]
    cases Numeral.read (digits.map Text.digit) <;> rfl
  | some m =>
    cases m with
    | float => exact absurd rfl unfloat
    | _ =>
      simp only [plainOperand, resolved]
      cases Numeral.read (digits.map Text.digit) <;> rfl

theorem IsDecimal.read {t digits : Text} (h : IsDecimal digits t) :
    ∃ kind, Operand.read t = (Numeral.read (digits.map Text.digit)).map fun n =>
      ⟨kind, none, Payload.ofNatural n⟩ := by
  obtain ⟨x, sign, marked, signed, nonempty, digit, rfl⟩ := h
  obtain ⟨m, unfloat, mark⟩ := (isMark_iff x).mpr marked
  exact ⟨_, read_decimal mark unfloat signed nonempty digit⟩

/-- Only a decimal literal can be too long. -/
theorem read_eq_tooManyDigits {t : Text} {n : Nat} : read t = .error (.tooManyDigits n) ↔
    ∃ digits, IsDecimal digits t ∧ digits.length = n ∧ Numeral.maxDigits < n := by
  constructor
  · intro fails
    cases found : Spelling.read? t with
    | none =>
      rw [Operand.read, found] at fails
      exact absurd fails (by simp)
    | some s =>
      rw [read_eq_operand found] at fails
      have shape := shape_of_scan (read?_eq_some.mp found)
      obtain ⟨m, p, rfl, unfloat, literal⟩ := shape.operand_error fails
      obtain ⟨values, parsed, long, same⟩ := Payload.ofLiteral_error literal
      obtain ⟨x, mark, _, payload, rfl⟩ := shape.parts
      have ascii : ∀ c ∈ p, c.toNat < 128 ∧ c ≠ '\n' := by
        intro c hc
        rcases payload.chars c hc with h | rfl | rfl | rfl
        · exact ⟨lt_of_isAlphanum h, by rintro rfl; exact absurd h (by decide)⟩
        all_goals decide
      obtain ⟨digits, numeral, rfl⟩ := Payload.decimalDigits?_eq_some.mp parsed
      obtain ⟨sign, rfl, signed, digit⟩ := numeral.exists_sign (fun c hc => (ascii c hc).1)
        fun member => (ascii _ member).2 rfl
      rw [List.length_map] at long same
      refine ⟨digits, ⟨x, sign, (isMark_iff x).mp ⟨m, unfloat, mark⟩, signed, numeral.present,
        digit, by simp⟩, ?_, ?_⟩
      · exact (Error.tooManyDigits.inj same).symm
      · rwa [Error.tooManyDigits.inj same]
  · rintro ⟨digits, decimal, rfl, long⟩
    obtain ⟨kind, read⟩ := decimal.read
    rw [read, Numeral.read, List.length_map, if_pos long]
    rfl

end Operand
end MemLogic
