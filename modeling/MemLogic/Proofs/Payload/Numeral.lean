import MemLogic.Proofs.Payload
import MemLogic.Proofs.Text.LetterCase

/-! Decimal numerals in digits of all scripts: which texts they are, and that as literals they are
nothing else. -/

namespace MemLogic

namespace Text

/-- A digit from zero to nine, of whichever script. -/
def IsDecimalDigit (c : Char) : Prop :=
  (digitValue? c).isSome

instance (c : Char) : Decidable (IsDecimalDigit c) :=
  inferInstanceAs (Decidable ((digitValue? c).isSome = true))

/-- The number that a digit counts for. -/
def digitValue (c : Char) : Nat :=
  (digitValue? c).getD 0

theorem isAlpha_of_isDecimalDigit {c : Char} (h : IsDecimalDigit c) : c.isAlpha = false := by
  have digitless : c.isAlpha → ¬ IsDecimalDigit c := by
    refine forall_of_ascii (fun c => c.isAlpha → ¬ IsDecimalDigit c) (by decide +kernel) ?_ c
    intro c beyond alpha
    have ascii := lt_of_isAlphanum (c := c) (by simp [Char.isAlphanum, alpha])
    omega
  exact Bool.eq_false_iff.mpr fun alpha => digitless alpha h

theorem mapM_digitValue?_eq_some {t : Text} {values : List Nat} : t.mapM digitValue? = some values ↔
    (∀ d ∈ t, IsDecimalDigit d) ∧ values = t.map digitValue := by
  induction t generalizing values with
  | nil => simp [eq_comm]
  | cons d t ih =>
    simp only [List.mapM_cons, Option.bind_eq_bind, Option.bind_eq_some_iff, ih,
      List.forall_mem_cons, List.map_cons]
    constructor
    · rintro ⟨n, first, _, ⟨others, rfl⟩, same⟩
      obtain rfl := Option.some.inj same
      exact ⟨⟨by simp [IsDecimalDigit, first], others⟩, by simp [digitValue, first]⟩
    · rintro ⟨⟨first, others⟩, rfl⟩
      obtain ⟨n, value⟩ := Option.isSome_iff_exists.mp first
      exact ⟨n, value, _, ⟨others, rfl⟩, by simp [digitValue, value]⟩

end Text

namespace Payload
open Text

variable {digits t : Text}

/-- Decimal digits, and the text that has them behind an optional plus sign and in front of an
optional line break. -/
structure IsNumeral (digits t : Text) : Prop where
  present : digits ≠ []
  decimal : ∀ d ∈ digits, IsDecimalDigit d
  written : ∃ sign ending : Text, (sign = [] ∨ sign = ['+']) ∧ (ending = [] ∨ ending = ['\n']) ∧
    t = sign ++ (digits ++ ending)

theorem isNumeral_digits (present : digits ≠ []) (decimal : ∀ d ∈ digits, IsDecimalDigit d) :
    IsNumeral digits digits :=
  ⟨present, decimal, [], [], .inl rfl, .inl rfl, (List.append_nil digits).symm⟩

/-- Without letters a text is neither a constant nor hexadecimal. -/
theorem isConstant_eq_false {t : Text} (h : ∀ c ∈ t, c.isAlpha = false) : isConstant t = false := by
  have letters : ∀ w ∈ constantWords, w.all Char.isAlpha ∧ w ≠ [] := by decide
  rw [isConstant, lower_of_letterless h, Bool.eq_false_iff]
  intro constant
  obtain ⟨all, nonempty⟩ := letters t (by simpa using constant)
  obtain ⟨c, hc⟩ := List.exists_mem_of_ne_nil t nonempty
  exact absurd (List.all_eq_true.mp all c hc) (by simp [h c hc])

theorem hasHexMark_eq_false {t : Text} (h : ∀ c ∈ t, c.isAlpha = false) :
    hasHexMark t = false := by
  rw [hasHexMark, lower_of_letterless h, Bool.eq_false_iff, ne_eq, List.isPrefixOf_iff_prefix]
  rintro ⟨r, rfl⟩
  exact absurd (h 'x' (by simp)) (by decide)

theorem IsNumeral.chars (h : IsNumeral digits t) :
    ∀ c ∈ t, IsDecimalDigit c ∨ c = '+' ∨ c = '\n' := by
  obtain ⟨sign, ending, signed, ended, rfl⟩ := h.written
  intro c member
  rcases List.mem_append.mp member with member | member
  · rcases signed with rfl | rfl
    · exact absurd member List.not_mem_nil
    · exact .inr (.inl (List.mem_singleton.mp member))
  · rcases List.mem_append.mp member with member | member
    · exact .inl (h.decimal c member)
    · rcases ended with rfl | rfl
      · exact absurd member List.not_mem_nil
      · exact .inr (.inr (List.mem_singleton.mp member))

theorem IsNumeral.ne_nil (h : IsNumeral digits t) : t ≠ [] := by
  obtain ⟨sign, ending, _, _, rfl⟩ := h.written
  simp [h.present]

theorem IsNumeral.letterless (h : IsNumeral digits t) : ∀ c ∈ t, c.isAlpha = false := by
  intro c member
  rcases h.chars c member with digit | rfl | rfl
  · exact isAlpha_of_isDecimalDigit digit
  all_goals decide

/-- The sign and the line break are told from the digits by what they are. -/
theorem IsNumeral.decimalDigits?_eq (h : IsNumeral digits t) :
    decimalDigits? t = some (digits.map digitValue) := by
  obtain ⟨sign, ending, signed, ended, rfl⟩ := h.written
  have unsigned : (if (sign ++ (digits ++ ending)).head? = some '+'
      then (sign ++ (digits ++ ending)).tail else sign ++ (digits ++ ending)) =
      digits ++ ending := by
    rcases signed with rfl | rfl
    · obtain ⟨d, r, rfl⟩ := List.exists_cons_of_ne_nil h.present
      have other : d ≠ '+' := by
        rintro rfl
        exact absurd (h.decimal '+' List.mem_cons_self) (by decide)
      simp [other]
    · rfl
  have unended : (if (digits ++ ending).getLast? = some '\n' then (digits ++ ending).dropLast
      else digits ++ ending) = digits := by
    rcases ended with rfl | rfl
    · have other : digits.getLast? ≠ some '\n' := fun last =>
        absurd (h.decimal '\n' (List.mem_of_getLast? last)) (by decide)
      simp [other]
    · simp
  simp only [decimalDigits?, unsigned, unended, h.present, if_false]
  exact mapM_digitValue?_eq_some.mpr ⟨h.decimal, rfl⟩

theorem decimalDigits?_eq_some {values : List Nat} : decimalDigits? t = some values ↔
    ∃ digits, IsNumeral digits t ∧ values = digits.map digitValue := by
  constructor
  · intro found
    have signed : ∃ sign : Text, (sign = [] ∨ sign = ['+']) ∧
        t = sign ++ if t.head? = some '+' then t.tail else t := by
      split
      · rename_i plus
        exact ⟨['+'], .inr rfl, List.eq_cons_of_mem_head? plus⟩
      · exact ⟨[], .inl rfl, rfl⟩
    have ended (u : Text) : ∃ ending : Text, (ending = [] ∨ ending = ['\n']) ∧
        u = (if u.getLast? = some '\n' then u.dropLast else u) ++ ending := by
      split
      · rename_i last
        exact ⟨['\n'], .inr rfl, (List.dropLast_append_getLast? _ last).symm⟩
      · exact ⟨[], .inl rfl, (List.append_nil u).symm⟩
    unfold decimalDigits? at found
    obtain ⟨sign, signed, split⟩ := signed
    generalize (if t.head? = some '+' then t.tail else t) = unsigned at found split
    obtain ⟨ending, ended, rest⟩ := ended unsigned
    dsimp only at found
    generalize (if unsigned.getLast? = some '\n' then unsigned.dropLast else unsigned) = digits
      at found rest
    split at found
    · exact absurd found (by simp)
    · rename_i present
      obtain ⟨decimal, same⟩ := mapM_digitValue?_eq_some.mp found
      exact ⟨digits, ⟨present, decimal, sign, ending, signed, ended, rest ▸ split⟩, same⟩
  · rintro ⟨digits, numeral, rfl⟩
    exact numeral.decimalDigits?_eq

/-- A decimal numeral is converted, which no other kind of literal is. -/
theorem IsNumeral.ofLiteral_eq (h : IsNumeral digits t) :
    ofLiteral t = (Numeral.read (digits.map digitValue)).map ofNatural := by
  have dotless : '.' ∉ t := fun dot => absurd (h.chars '.' dot) (by decide)
  have positive : t.head? ≠ some '-' := fun minus =>
    absurd (h.chars '-' (List.mem_of_mem_head? minus)) (by decide)
  simp [ofLiteral, h.ne_nil, isConstant_eq_false h.letterless, dotless, positive,
    hasHexMark_eq_false h.letterless, h.decimalDigits?_eq]

end Payload
end MemLogic
