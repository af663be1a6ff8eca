import MemLogic.Operand.Spelling
import MemLogic.Requirement

/-! How requirements are written: a flag with a colon, the left operand, a comparator with the
right operand, and a hit count, of which only the left operand is always there. -/

namespace MemLogic.Requirement

/-- The parts of a requirement as written. -/
structure Spelling where
  flag : Text
  left : Operand.Spelling
  comparison : Option (Text × Operand.Spelling)
  hits : Option Text
  deriving DecidableEq, Repr

namespace Spelling

def flagLetters : Text :=
  "prabcdnomqitzgk".toList

/-- Takes a flag letter with its colon off the front. -/
def splitFlag (t : Text) : Text × Text :=
  match t with
  | c :: ':' :: r => if flagLetters.contains c.toLower then ([c], r) else ([], t)
  | _ => ([], t)

/-- A single character that closes a hit count; it need not match the opening one. -/
def isClosing (t : Text) : Bool :=
  t == ['.'] || t == [')'] || t == [']']

/-- The digits of a text that is a hit count and nothing else. -/
def hitDigits? (t : Text) : Option Text :=
  match t with
  | [] => none
  | c :: r =>
    let digits := r.takeWhile Char.isDigit
    if (c = '.' ∨ c = '(') ∧ digits ≠ [] ∧ isClosing (r.dropWhile Char.isDigit) then some digits
    else none

/-- Takes a hit count off the end. No operand ends like one, so what ends like a hit count is
one. -/
def splitHits : Text → Text × Option Text
  | [] => ([], none)
  | c :: r =>
    match hitDigits? (c :: r) with
    | some digits => ([], some digits)
    | none => (c :: (splitHits r).1, (splitHits r).2)

/-- Comparator symbols, each before the shorter ones that it starts with. -/
def comparatorTokens : List Text :=
  ["<=".toList, ">=".toList, "!=".toList, "==".toList, "<".toList, ">".toList, "=".toList,
    "*".toList, "/".toList, "&".toList, "+".toList, "-".toList, "^".toList, "%".toList]

/-- What may follow the left operand: nothing, or a comparator and a whole operand. -/
def comparison? (t : Text) : Option (Option (Text × Operand.Spelling)) :=
  let symbol := Text.splitToken comparatorTokens t
  if t = [] then some none
  else if symbol.1 = [] then none
  else (Operand.Spelling.read? symbol.2).map fun right => some (symbol.1, right)

/-- Takes the sign of the left payload for the comparator instead: the left operand then ends
before the sign and has no payload. -/
def signComparison? (t : Text) : Option (Operand.Spelling × Option (Text × Operand.Spelling)) :=
  let modifier := Operand.Spelling.splitModifier t
  let size := Operand.Spelling.splitSize modifier.2
  let sign := Operand.Spelling.splitSign size.2
  if sign.1 = [] then none
  else (Operand.Spelling.read? sign.2).map fun right =>
    (.plain modifier.1 size.1 [], some (sign.1, right))

/-- The left operand is as long as can be, unless only its sign can be the comparator. -/
def sides? (t : Text) : Option (Operand.Spelling × Option (Text × Operand.Spelling)) :=
  let left := Operand.Spelling.scan t
  match comparison? left.2 with
  | some comparison => some (left.1, comparison)
  | none => signComparison? t

/-- Reads a whole text as one requirement. -/
def read? (t : Text) : Option Spelling :=
  let flag := splitFlag t
  let body := splitHits flag.2
  (sides? body.1).map fun sides => ⟨flag.1, sides.1, sides.2, body.2⟩

/-- Accumulating flags drop the hit count unread; otherwise none is a count of zero. -/
def hitCount (flag : Flag) (digits : Option Text) : Except Error (Option Int) :=
  if flag.accumulates then .ok none
  else match digits with
    | some digits =>
      (Numeral.read (digits.map fun d => d.toNat - '0'.toNat)).map fun n => some (n : Int)
    | none => .ok (some 0)

/-- The requirement that a spelling stands for; without a comparison it equals a blank value.
The parts are resolved from left to right, so the leftmost failure is the one reported. -/
def requirement (s : Spelling) : Except Error Requirement := do
  let flag ← Flag.ofLetter s.flag
  let left ← s.left.operand
  let comparator ← Comparator.ofSymbol ((s.comparison.map Prod.fst).getD [])
  let right ← (s.comparison.map fun c => c.2.operand).getD (.ok .blank)
  let hits ← hitCount flag s.hits
  return ⟨flag, left, comparator, right, hits⟩

end Spelling

/-- Reads a whole segment as one requirement. -/
def read (segment : Text) : Except Error Requirement :=
  match Spelling.read? segment with
  | some spelling => spelling.requirement
  | none => .error (.noShape segment)

end MemLogic.Requirement
