import MemLogic.Text

/-! Decimal and hexadecimal numerals. -/

namespace MemLogic.Numeral

/-- Lower-case hexadecimal digits without leading zeros; zero is a single digit. -/
def hexadecimal (n : Nat) : Text :=
  Nat.toDigits 16 n

def natural (n : Nat) : Text :=
  Nat.toDigits 10 n

def integer : Int → Text
  | .ofNat n => natural n
  | .negSucc n => '-' :: natural (n + 1)

/-- The number whose decimal digits, most significant first, have these values. -/
def ofDigits (digits : List Nat) : Nat :=
  digits.foldl (fun n d => 10 * n + d) 0

/-- Numerals with more decimal digits than this are not converted. -/
def maxDigits : Nat := 4300

end MemLogic.Numeral
