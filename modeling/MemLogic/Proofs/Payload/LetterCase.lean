import MemLogic.Proofs.Numeral
import MemLogic.Proofs.Operand.Extent
import MemLogic.Proofs.Outcome

/-! Letter case in payloads: writing a payload in lower case puts its canonical form in lower case,
and does nothing else. -/

namespace MemLogic
open Text
variable {α β : Type}

/-- The same cause, with the text that it arose from in lower case. A flag is named in upper case
whatever case it is written in. -/
def Error.lowerCase : Error → Error
  | noShape segment => noShape (Text.lower segment)
  | unknownSize token => unknownSize (Text.lower token)
  | unknownComparator token => unknownComparator (Text.lower token)
  | e => e

/-- An outcome in lower case, given what that makes of a result. -/
def lowered (f : α → α) : Except Error α → Except Error α
  | .ok a => .ok (f a)
  | .error e => .error e.lowerCase

/-- Steps that do not look at letter case do not do so in a row. -/
theorem lowered_bind {f : α → α} {g : β → β} {x : Except Error α} {k k' : α → Except Error β}
    (step : ∀ a, k' (f a) = lowered g (k a)) :
    (lowered f x >>= k') = lowered g (x >>= k) := by
  cases x with
  | ok a => exact step a
  | error e => rfl

theorem lowered_map {f : α → α} {g : β → β} {x : Except Error α} {k : α → β}
    (step : ∀ a, k (f a) = g (k a)) : (lowered f x).map k = lowered g (x.map k) := by
  cases x with
  | ok a => exact congrArg Except.ok (step a)
  | error e => rfl

section Lowered
variable {f : α → α} {x : Except Error α}

theorem lowered_eq_ok {b : α} : lowered f x = .ok b ↔ ∃ a, x = .ok a ∧ f a = b := by
  cases x <;> simp [lowered]

theorem lowered_eq_noShape :
    (∃ segment, lowered f x = .error (.noShape segment)) ↔
      ∃ segment, x = .error (.noShape segment) := by
  cases x with
  | ok a => simp [lowered]
  | error e => cases e <;> simp [lowered, Error.lowerCase]

theorem lowered_eq_tooManyDigits {n : Nat} :
    lowered f x = .error (.tooManyDigits n) ↔ x = .error (.tooManyDigits n) := by
  cases x with
  | ok a => simp [lowered]
  | error e => cases e <;> simp [lowered, Error.lowerCase]

end Lowered

namespace Text

theorem digitValue?_toLower (c : Char) : digitValue? c.toLower = digitValue? c := by
  refine forall_of_ascii (fun c => digitValue? c.toLower = digitValue? c) (by decide +kernel) ?_ c
  intro c h
  rw [toLower_of_le h]

end Text

theorem Numeral.lower_hexadecimal (n : Nat) : Text.lower (hexadecimal n) = hexadecimal n := by
  have same := forall_mem_hexadecimal (P := fun c => c.toLower = c) (by decide) n
  rw [Text.lower, List.map_congr_left same, List.map_id']

namespace Payload

theorem lower_pad (t : Text) : lower (pad t) = pad (lower t) := by
  simp [pad, lower, List.leftpad, show '0'.toLower = '0' by decide,
    show 'x'.toLower = 'x' by decide]

theorem lower_ofNatural (n : Nat) : lower (ofNatural n) = ofNatural n := by
  rw [ofNatural, lower_pad, Numeral.lower_hexadecimal]

theorem hasHexMark_lower (t : Text) : hasHexMark (lower t) = hasHexMark t := by
  rw [hasHexMark, lower_lower, hasHexMark]

theorem ofAddress_lower (t : Text) : ofAddress (lower t) = lower (ofAddress t) := by
  simp only [ofAddress, lower_eq_nil, hasHexMark_lower]
  split
  · rfl
  · split
    · rw [lower_pad, lower, lower, List.map_drop]
    · rw [lower_pad]

theorem decimalDigits?_lower (t : Text) : decimalDigits? (lower t) = decimalDigits? t := by
  have unsigned : (if (lower t).head? = some '+' then (lower t).tail else lower t) =
      lower (if t.head? = some '+' then t.tail else t) := by
    simp only [head?_lower_eq_some (show '+'.isAlpha = false by decide)]
    split
    · exact List.map_tail.symm
    · rfl
  have unbroken (u : Text) : (if (lower u).getLast? = some '\n' then (lower u).dropLast
      else lower u) = lower (if u.getLast? = some '\n' then u.dropLast else u) := by
    simp only [getLast?_lower_eq_some (show '\n'.isAlpha = false by decide)]
    split
    · exact List.map_dropLast.symm
    · rfl
  have values (u : Text) : (lower u).mapM digitValue? = u.mapM digitValue? := by
    rw [lower, List.mapM_map]
    exact congrArg (List.mapM · u) (funext digitValue?_toLower)
  simp only [decimalDigits?, unsigned, unbroken, lower_eq_nil, values]

theorem ofLiteral_lower (t : Text) : ofLiteral (lower t) = lowered lower (ofLiteral t) := by
  have dot : (lower t).contains '.' = t.contains '.' := by
    rw [Bool.eq_iff_iff, List.contains_iff_mem, List.contains_iff_mem, mem_lower (by decide)]
  have minus : ((lower t).head? == some '-') = (t.head? == some '-') := by
    rw [Bool.eq_iff_iff, beq_iff_eq, beq_iff_eq, head?_lower_eq_some (by decide)]
  simp only [ofLiteral, lower_eq_nil, Operand.Spelling.isConstant_lower, dot, minus,
    hasHexMark_lower, decimalDigits?_lower]
  split
  · rfl
  · split
    · rfl
    · split
      · rw [ofAddress_lower]
        rfl
      · split
        · rename_i digits _
          unfold Numeral.read
          split
          · rfl
          · exact congrArg Except.ok (lower_ofNatural _).symm
        · rw [← lower_pad]
          rfl

end Payload
end MemLogic
