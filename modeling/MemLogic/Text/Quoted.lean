import MemLogic.Text.Printable

/-! Quoting of arbitrary text so that it stays on one line. -/

namespace MemLogic.Text

/-- Single quotes, unless the text holds a single quote and no double one. -/
def quoteMark (t : Text) : Char :=
  if '\'' ∈ t ∧ '"' ∉ t then '"' else '\''

/-- Two, four or eight hexadecimal digits, whichever hold the code point. -/
def escapeCode (c : Char) : Text :=
  let n := c.toNat
  if n < 0x100 then '\\' :: 'x' :: (Nat.toDigits 16 n).leftpad 2 '0'
  else if n < 0x10000 then '\\' :: 'u' :: (Nat.toDigits 16 n).leftpad 4 '0'
  else '\\' :: 'U' :: (Nat.toDigits 16 n).leftpad 8 '0'

def escapeChar (mark c : Char) : Text :=
  if c = mark ∨ c = '\\' then ['\\', c]
  else if c = '\n' then ['\\', 'n']
  else if c = '\r' then ['\\', 'r']
  else if c = '\t' then ['\\', 't']
  else if isPrintable c then [c]
  else escapeCode c

/-- The quoted form of a text; it has neither line breaks nor unprintable characters. -/
def quote (t : Text) : Text :=
  quoteMark t :: t.flatMap (escapeChar (quoteMark t)) ++ [quoteMark t]

end MemLogic.Text
