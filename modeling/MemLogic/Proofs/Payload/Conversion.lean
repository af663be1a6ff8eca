import MemLogic.Proofs.Numeral.Hexadecimal
import MemLogic.Proofs.Payload.Numeral
import MemLogic.Text.Blank

/-! Conversion of literals: a literal is refused only for the number of its digits, and decimal
numerals of all scripts become the hexadecimal form of the number that they denote. -/

namespace MemLogic

namespace Text

/-- No blank is among the ten digits behind a zero. -/
theorem isBlank_of_isDecimalDigit {c : Char} (h : IsDecimalDigit c) : isBlank c = false := by
  have zeros : ∀ z ∈ digitZeros, 0x20 < z ∧ z + 10 ≤ 0x85 ∨ 0xa0 < z ∧ z + 10 ≤ 0x1680 ∨
      0x1680 < z ∧ z + 10 ≤ 0x2000 ∨ 0x3000 < z := by
    decide
  obtain ⟨_, value⟩ := Option.isSome_iff_exists.mp h
  obtain ⟨z, found, _⟩ := Option.map_eq_some_iff.mp value
  have within := List.find?_some found
  simp only [Bool.and_eq_true, decide_eq_true_eq] at within
  have place := zeros z (List.mem_of_find?_eq_some found)
  simp only [isBlank, Bool.or_eq_false_iff, Bool.and_eq_false_iff, decide_eq_false_iff_not,
    beq_eq_false_iff_ne]
  omega

/-- Nothing is lost of a text that neither begins nor ends in a class, however much of the class
stands behind it. -/
theorem dropWhile_ends {p : Char → Bool} {t ending : Text} (first : StopsAt p t)
    (last : StopsAt p t.reverse) (present : t ≠ []) (ended : ∀ c ∈ ending, p c) :
    (((t ++ ending).dropWhile p).reverse.dropWhile p).reverse = t := by
  have front : StopsAt p (t ++ ending) := by
    obtain ⟨c, r, rfl⟩ := List.exists_cons_of_ne_nil present
    exact first
  have kept : (t ++ ending).dropWhile p = t ++ ending :=
    dropWhile_append_of_stopsAt (x := []) (by simp) front
  rw [kept, List.reverse_append, dropWhile_append_of_stopsAt (by simpa using ended) last,
    List.reverse_reverse]

end Text

namespace Numeral
open Text

/-- The number that decimal digits denote, the most significant one first. -/
def ofDecimal (digits : Text) : Nat :=
  Nat.ofDigits 10 (digits.reverse.map digitValue)

/-- White space that may stand around an integer: blanks, save the separators of ASCII. -/
def isSpace (c : Char) : Bool :=
  isBlank c && !(0x1c ≤ c.toNat && c.toNat ≤ 0x1f)

/-- The values of decimal digits that single underscores may part. -/
def groupedDigits? (t : Text) : Option (List Nat) :=
  let groups := t.splitOn '_'
  if groups.any List.isEmpty then none else groups.flatten.mapM digitValue?

/-- Whether an integer in base 10 is negative and the values of its digits, however many. -/
def integer? (t : Text) : Option (Bool × List Nat) :=
  match ((t.dropWhile isSpace).reverse.dropWhile isSpace).reverse with
  | '-' :: r => (groupedDigits? r).map (true, ·)
  | '+' :: r => (groupedDigits? r).map (false, ·)
  | r => (groupedDigits? r).map (false, ·)

/-- The digits are weighed from the least significant one, and summed up from the most. -/
theorem ofDigits_digitValue (digits : Text) :
    ofDigits (digits.map digitValue) = ofDecimal digits := by
  rw [ofDecimal, List.map_reverse, Nat.ofDigits_eq_foldr, List.foldr_reverse, ofDigits]
  congr 1
  funext n d
  simp only [Nat.cast_id]
  omega

theorem groupedDigits?_eq {digits : Text} (present : digits ≠ [])
    (decimal : ∀ d ∈ digits, IsDecimalDigit d) :
    groupedDigits? digits = some (digits.map digitValue) := by
  have unparted : '_' ∉ digits := fun member => absurd (decimal '_' member) (by decide)
  rw [groupedDigits?, List.splitOn_eq_singleton unparted]
  simpa [present] using mapM_digitValue?_eq_some.mpr ⟨decimal, rfl⟩

end Numeral

namespace Payload
open Text Numeral

variable {digits t : Text}

theorem ofNatural_injective {n m : Nat} (h : ofNatural n = ofNatural m) : n = m :=
  leftpad_hexadecimal_injective (List.cons.inj (List.cons.inj h).2).2

/-- A decimal numeral is an integer without a minus sign, of the same digits. -/
theorem IsNumeral.integer?_eq (h : IsNumeral digits t) :
    integer? t = some (false, digits.map digitValue) := by
  have grouped := groupedDigits?_eq h.present h.decimal
  have dense : ∀ d ∈ digits, isSpace d = false := fun d member => by
    simp [isSpace, isBlank_of_isDecimalDigit (h.decimal d member)]
  obtain ⟨sign, ending, signed, ended, rfl⟩ := h.written
  have space : ∀ c ∈ ending, isSpace c := by
    rcases ended with rfl | rfl <;> decide
  have solid : ∀ c ∈ sign ++ digits, isSpace c = false := by
    intro c member
    rcases List.mem_append.mp member with member | member
    · rcases signed with rfl | rfl
      · exact absurd member List.not_mem_nil
      · obtain rfl := List.mem_singleton.mp member
        decide
    · exact dense c member
  have bare := dropWhile_ends (t := sign ++ digits)
    (fun c member => solid c (List.mem_of_mem_head? member))
    (fun c member => solid c (List.mem_reverse.mp (List.mem_of_mem_head? member)))
    (by simp [h.present]) space
  rw [List.append_assoc] at bare
  rw [integer?, bare]
  rcases signed with rfl | rfl
  · have unsigned : ∀ c ∈ digits, c ≠ '-' ∧ c ≠ '+' := by
      rintro c member
      constructor <;> rintro rfl <;> exact absurd (h.decimal _ member) (by decide)
    obtain ⟨d, r, rfl⟩ := List.exists_cons_of_ne_nil h.present
    obtain ⟨minus, plus⟩ := unsigned d List.mem_cons_self
    simp [minus, plus, grouped]
  · simp [grouped]

/-- Only a numeral is refused, and only one that is too long. -/
theorem ofLiteral_eq_error {e : Error} : ofLiteral t = .error e ↔
    ∃ digits, IsNumeral digits t ∧ maxDigits < digits.length ∧
      e = .tooManyDigits digits.length := by
  constructor
  · intro fails
    obtain ⟨values, found, long, rfl⟩ := ofLiteral_error fails
    obtain ⟨digits, numeral, rfl⟩ := decimalDigits?_eq_some.mp found
    rw [List.length_map] at long ⊢
    exact ⟨digits, numeral, long, rfl⟩
  · rintro ⟨digits, numeral, long, rfl⟩
    rw [numeral.ofLiteral_eq, Numeral.read, List.length_map, if_pos long]
    rfl

theorem IsNumeral.ofLiteral_eq_ok (h : IsNumeral digits t) (short : digits.length ≤ maxDigits) :
    ofLiteral t = .ok (ofNatural (ofDecimal digits)) := by
  rw [h.ofLiteral_eq, Numeral.read, List.length_map, if_neg (by omega), ofDigits_digitValue]
  rfl

/-- Every text is a literal with a canonical form, unless it is a decimal numeral with more digits
than are converted. Whatever its scripts, its zeros in front and its line break behind, a numeral
is an integer of the same digits; within the bound its form is that of the number they denote, so
that forms agree exactly where numbers do. -/
theorem ofLiteral_total (t : Text) :
    (∀ e, ofLiteral t = .error e ↔ ∃ digits, IsNumeral digits t ∧ maxDigits < digits.length ∧
      e = .tooManyDigits digits.length) ∧
    (∀ digits, IsNumeral digits t →
      integer? t = some (false, digits.map digitValue) ∧
      (digits.length ≤ maxDigits → ∃ v, ofInteger (.ofNat (ofDecimal digits)) = .ok v ∧
        ofLiteral t = .ok v)) ∧
    ∀ t' digits digits', IsNumeral digits t → IsNumeral digits' t' →
      digits.length ≤ maxDigits → digits'.length ≤ maxDigits →
      (ofLiteral t = ofLiteral t' ↔ ofDecimal digits = ofDecimal digits') := by
  refine ⟨fun e => ofLiteral_eq_error, fun digits numeral => ⟨numeral.integer?_eq, fun short => ?_⟩,
    ?_⟩
  · exact ⟨_, rfl, numeral.ofLiteral_eq_ok short⟩
  · intro t' digits digits' numeral numeral' short short'
    rw [numeral.ofLiteral_eq_ok short, numeral'.ofLiteral_eq_ok short']
    constructor
    · intro same
      exact ofNatural_injective (Except.ok.inj same)
    · intro same
      rw [same]

/-- Thirty-four in digits of two scripts, behind a plus sign and in front of a line break, is
thirty-four behind a zero; with 4301 digits nothing is converted. -/
theorem ofLiteral_total_scripts :
    ofLiteral "+٣4\n".toList = .ok "0x000022".toList ∧
    ofLiteral "+٣4\n".toList = ofLiteral "034".toList ∧
    ofLiteral (List.replicate 4301 '٣') = .error (.tooManyDigits 4301) := by
  have mixed : IsNumeral ['٣', '4'] "+٣4\n".toList :=
    ⟨by decide, by decide, ['+'], ['\n'], .inr rfl, .inr rfl, by decide⟩
  have padded : IsNumeral "034".toList "034".toList := isNumeral_digits (by decide) (by decide)
  have long : IsNumeral (List.replicate 4301 '٣') (List.replicate 4301 '٣') := by
    refine isNumeral_digits List.replicate_succ_ne_nil fun d member => ?_
    obtain rfl := List.eq_of_mem_replicate member
    decide
  obtain ⟨_, converted, alike⟩ := ofLiteral_total "+٣4\n".toList
  obtain ⟨refused, _⟩ := ofLiteral_total (List.replicate 4301 '٣')
  obtain ⟨_, form⟩ := converted _ mixed
  obtain ⟨v, number, same⟩ := form (by decide)
  refine ⟨same.trans (number.symm.trans (by decide)), ?_, ?_⟩
  · exact (alike _ _ _ mixed padded (by decide) (by decide)).mpr (by decide)
  · exact (refused _).mpr ⟨_, long, by rw [List.length_replicate]; decide, by
      rw [List.length_replicate]⟩

end Payload
end MemLogic
