import MemLogic.Proofs.Payload.LetterCase

/-! Operands in any letter case: in lower case a text is spelled and read as before, in lower
case. -/

namespace MemLogic
open Text

namespace Size

theorem foldLetter_toLower (c : Char) : foldLetter c.toLower = foldLetter c := by
  simp only [foldLetter, toLower_eq_iff (show '\u212a'.isAlpha = false by decide),
    toLower_toLower]

theorem ofToken_lower (k : Text) : ofToken (lower k) = lowered id (ofToken k) := by
  have folded : (lower k).map foldLetter = k.map foldLetter := by
    rw [lower, List.map_map]
    exact List.map_congr_left fun c _ => foldLetter_toLower c
  simp only [ofToken, folded]
  split
  · rfl
  · split <;> rfl

end Size

namespace Operand

/-- The operand with its value in lower case. -/
def lowerCase (o : Operand) : Operand :=
  { o with value := lower o.value }

/-- Operands that differ in the letter case of their values at most. -/
structure SameButCase (o o' : Operand) : Prop where
  kind : o.kind = o'.kind
  size : o.size = o'.size
  value : lower o.value = lower o'.value

theorem sameButCase_of_lower {o o' : Operand} (h : o.lowerCase = o'.lowerCase) :
    o.SameButCase o' := by
  obtain ⟨kind, size, value⟩ := Operand.mk.inj h
  exact ⟨kind, size, value⟩

namespace Spelling

/-- The parts in lower case. Which modifier is written does not depend on letter case. -/
def lowerCase : Spelling → Spelling
  | recalled => recalled
  | named name => named (lower name)
  | constant word => constant (lower word)
  | plain modifier size payload => plain modifier (lower size) (lower payload)

theorem ofName_lower (name : Text) : ofName (lower name) = (ofName name).lowerCase := by
  simp only [ofName, lower_lower]
  split <;> rfl

theorem splitBraced?_cons (t : Text) : splitBraced? ('\x7b' :: t) =
    if (splitWord t).2.head? = some '\x7d' ∧ (splitWord t).1 ≠ [] then
      some ((splitWord t).1, (splitWord t).2.tail) else none := by
  simp only [splitBraced?]
  split
  · rename_i name rest cut
    simp [cut]
  · rename_i unclosed
    rw [if_neg]
    rintro ⟨closed, _⟩
    obtain ⟨rest, left⟩ := List.head?_eq_some_iff.mp closed
    exact unclosed _ rest (Prod.ext rfl left)

theorem splitBraced?_lower (t : Text) : splitBraced? (lower t) =
    (splitBraced? t).map fun p => (lower p.1, lower p.2) := by
  cases t with
  | nil => rfl
  | cons c t =>
    by_cases brace : c = '\x7b'
    · subst brace
      rw [lower_cons, show '\x7b'.toLower = '\x7b' by decide, splitBraced?_cons, splitBraced?_cons,
        splitWord_lower]
      simp only [head?_lower_eq_some (show '\x7d'.isAlpha = false by decide), ne_eq, lower_eq_nil]
      split
      · simp [lower]
      · rfl
    · have brace' : c.toLower ≠ '\x7b' := by rwa [ne_eq, toLower_eq_iff (by decide)]
      rw [lower_cons, splitBraced?_eq_none (by simpa using brace'),
        splitBraced?_eq_none (by simpa using brace)]
      rfl

theorem splitConstant?_lower (t : Text) : splitConstant? (lower t) =
    (splitConstant? t).map fun p => (lower p.1, lower p.2) := by
  simp only [splitConstant?, splitWord_lower, isConstant_lower, ne_eq,
    head?_lower_eq_some (show '.'.isAlpha = false by decide)]
  split <;> rfl

theorem splitPlain_lower (t : Text) :
    splitPlain (lower t) = ((splitPlain t).1.lowerCase, lower (splitPlain t).2) := by
  simp only [splitPlain_eq, splitFront_lower, splitPayload_lower, lowerCase]

theorem scan_lower (t : Text) :
    scan (lower t) = ((scan t).1.lowerCase, lower (scan t).2) := by
  simp only [scan, splitBraced?_lower, splitConstant?_lower, splitPlain_lower]
  cases splitBraced? t with
  | some pieces => simp only [Option.map_some, ofName_lower]
  | none =>
    cases splitConstant? t with
    | some pieces => rfl
    | none => rfl

theorem read?_lower (t : Text) : read? (lower t) = (read? t).map lowerCase := by
  simp only [read?, scan_lower, lower_eq_nil]
  split <;> rfl

theorem plainOperand_lower (m : Option Modifier) (size : Option Size) (p : Text) :
    plainOperand m size (lower p) = lowered Operand.lowerCase (plainOperand m size p) := by
  have literal (kind : Kind) : ((Payload.ofLiteral (lower p)).map fun v =>
      (⟨kind, none, v⟩ : Operand)) =
        lowered Operand.lowerCase ((Payload.ofLiteral p).map fun v => ⟨kind, none, v⟩) := by
    rw [Payload.ofLiteral_lower]
    exact lowered_map fun _ => rfl
  have address (kind : Kind) (size : Option Size) :
      (⟨kind, size, Payload.ofAddress (lower p)⟩ : Operand) =
        Operand.lowerCase ⟨kind, size, Payload.ofAddress p⟩ := by
    rw [Payload.ofAddress_lower]
    rfl
  cases size with
  | none =>
    cases m with
    | none => exact literal .value
    | some m =>
      cases m with
      | float => rfl
      | _ => exact literal _
  | some size =>
    cases m with
    | none => exact congrArg Except.ok (address _ _)
    | some m => cases m <;> exact congrArg Except.ok (address _ _)

theorem operand_lower (s : Spelling) :
    s.lowerCase.operand = lowered Operand.lowerCase s.operand := by
  cases s with
  | recalled => rfl
  | named name => rfl
  | constant word => rfl
  | plain m k p =>
    simp only [lowerCase, operand, lower_eq_nil, lower_lower, plainOperand_lower]
    split
    · rfl
    · split
      · rw [Payload.ofAddress_lower]
        rfl
      · rw [Size.ofToken_lower]
        exact lowered_bind fun _ => rfl

end Spelling

/-- An operand is read in any letter case, and only its value keeps the one it is written in. -/
theorem read_lower (t : Text) : read (lower t) = lowered lowerCase (read t) := by
  simp only [read, Spelling.read?_lower]
  cases Spelling.read? t with
  | none => rfl
  | some s => exact Spelling.operand_lower s

end Operand
end MemLogic
