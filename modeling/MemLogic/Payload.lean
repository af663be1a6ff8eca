import MemLogic.Numeral.Reader

/-! Canonical payloads: addresses and literals as operands store them. -/

namespace MemLogic.Payload

/-- Six digits at least, behind `0x`; wider payloads are kept whole. -/
def pad (digits : Text) : Text :=
  '0' :: 'x' :: digits.leftpad 6 '0'

def hasHexMark (t : Text) : Bool :=
  ['0', 'x'].isPrefixOf (Text.lower t)

/-- The constants that stand for themselves, in lower case. -/
def constantWords : List Text :=
  ["true".toList, "false".toList, "lvlintro".toList, "n".toList, "t".toList]

def isConstant (t : Text) : Bool :=
  constantWords.contains (Text.lower t)

def ofNatural (n : Nat) : Text :=
  pad (Numeral.hexadecimal n)

def ofInteger : Int → Except Error Text
  | .ofNat n => .ok (ofNatural n)
  | .negSucc n => .error (.negativeNumber (.negSucc n))

/-- Digits keep the letter case that they are written in; one `0x` in front is dropped before
the padding, and no payload stays no payload. -/
def ofAddress (t : Text) : Text :=
  if t = [] then []
  else if hasHexMark t then pad (t.drop 2)
  else pad t

/-- Digit values of a decimal numeral of any scripts, after an optional plus sign and before an
optional final line break. -/
def decimalDigits? (t : Text) : Option (List Nat) :=
  let unsigned := if t.head? = some '+' then t.tail else t
  let digits := if unsigned.getLast? = some '\n' then unsigned.dropLast else unsigned
  if digits = [] then none else digits.mapM Text.digitValue?

/-- Decimal numerals become hexadecimal and hexadecimal ones are padded; constants, texts with
a dot and texts with a minus sign stay as written; anything else is padded as it is. -/
def ofLiteral (t : Text) : Except Error Text :=
  if t = [] then .ok []
  else if isConstant t || t.contains '.' || t.head? == some '-' then .ok t
  else if hasHexMark t then .ok (ofAddress t)
  else match decimalDigits? t with
    | some digits => (Numeral.read digits).map ofNatural
    | none => .ok (pad t)

end MemLogic.Payload
