import MemLogic.Numeral
import MemLogic.Text.Quoted

/-! What can be wrong with a condition, a token or a number, and how it is reported. -/

namespace MemLogic

/-- Causes of failure, each with the text or number that it arose from. -/
inductive Error where
  | noShape (segment : Text)
  | tooManyDigits (count : Nat)
  | unknownFlag (letter : Text)
  | unknownSize (token : Text)
  | unknownComparator (token : Text)
  | negativeNumber (value : Int)
  | noCoreGroup
  deriving DecidableEq, Repr

def Error.message : Error → Text
  | noShape segment => "Invalid \"Mem\" string. Failed to parse: ".toList ++ segment
  | tooManyDigits count =>
    "Exceeds the limit (".toList ++ Numeral.natural Numeral.maxDigits ++
      " digits) for integer string conversion: value has ".toList ++ Numeral.natural count ++
      " digits; use sys.set_int_max_str_digits() to increase the limit".toList
  | unknownFlag letter => Text.quote letter ++ " is not a valid Flag".toList
  | unknownSize token => "Unknown size token: ".toList ++ Text.quote token
  | unknownComparator token => Text.quote token ++ " is not a valid Comparator".toList
  | negativeNumber value =>
    "hex_literal() expects a non-negative value, got ".toList ++ Numeral.integer value
  | noCoreGroup => "tuple index out of range".toList

end MemLogic
