import MemLogic.Error
import MemLogic.Text.DecimalDigit

/-! Conversion of decimal digits up to the bound on their number. -/

namespace MemLogic.Numeral

/-- Leading zeros count as digits. -/
def read (digits : List Nat) : Except Error Nat :=
  if maxDigits < digits.length then .error (.tooManyDigits digits.length)
  else .ok (ofDigits digits)

end MemLogic.Numeral
