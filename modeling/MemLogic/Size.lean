import MemLogic.Error

/-! Memory sizes: which bits are read at an address, and in which encoding. -/

namespace MemLogic

inductive Size where
  | bit0
  | bit1
  | bit2
  | bit3
  | bit4
  | bit5
  | bit6
  | bit7
  | bitCount
  | lower4
  | upper4
  | bits8
  | bits16
  | bits24
  | bits32
  | bits16BE
  | bits24BE
  | bits32BE
  | float
  | floatBE
  | double32
  | double32BE
  | mbf32
  | mbf32LE
  deriving DecidableEq, Repr

namespace Size

def all : List Size :=
  [bit0, bit1, bit2, bit3, bit4, bit5, bit6, bit7, bitCount, lower4, upper4, bits8, bits16, bits24,
    bits32, bits16BE, bits24BE, bits32BE, float, floatBE, double32, double32BE, mbf32, mbf32LE]

theorem mem_all (s : Size) : s ∈ all := by
  cases s <;> decide

/-- The token before an address, in its canonical letter case. -/
def token : Size → Text
  | bit0 => "0xM".toList
  | bit1 => "0xN".toList
  | bit2 => "0xO".toList
  | bit3 => "0xP".toList
  | bit4 => "0xQ".toList
  | bit5 => "0xR".toList
  | bit6 => "0xS".toList
  | bit7 => "0xT".toList
  | bitCount => "0xK".toList
  | lower4 => "0xL".toList
  | upper4 => "0xU".toList
  | bits8 => "0xH".toList
  | bits16 => "0x".toList
  | bits24 => "0xW".toList
  | bits32 => "0xX".toList
  | bits16BE => "0xI".toList
  | bits24BE => "0xJ".toList
  | bits32BE => "0xG".toList
  | float => "fF".toList
  | floatBE => "fB".toList
  | double32 => "fH".toList
  | double32BE => "fI".toList
  | mbf32 => "fM".toList
  | mbf32LE => "fL".toList

/-- The name in tables. -/
def label : Size → Text
  | bit0 => "Bit0".toList
  | bit1 => "Bit1".toList
  | bit2 => "Bit2".toList
  | bit3 => "Bit3".toList
  | bit4 => "Bit4".toList
  | bit5 => "Bit5".toList
  | bit6 => "Bit6".toList
  | bit7 => "Bit7".toList
  | bitCount => "BitCount".toList
  | lower4 => "Lower4".toList
  | upper4 => "Upper4".toList
  | bits8 => "8-bit".toList
  | bits16 => "16-bit".toList
  | bits24 => "24-bit".toList
  | bits32 => "32-bit".toList
  | bits16BE => "16-bit BE".toList
  | bits24BE => "24-bit BE".toList
  | bits32BE => "32-bit BE".toList
  | float => "Float".toList
  | floatBE => "Float BE".toList
  | double32 => "Double32".toList
  | double32BE => "Double32 BE".toList
  | mbf32 => "MBF32".toList
  | mbf32LE => "MBF32 LE".toList

/-- The name in descriptions of the set of sizes. -/
def tag : Size → Text
  | bit0 => "BIT0".toList
  | bit1 => "BIT1".toList
  | bit2 => "BIT2".toList
  | bit3 => "BIT3".toList
  | bit4 => "BIT4".toList
  | bit5 => "BIT5".toList
  | bit6 => "BIT6".toList
  | bit7 => "BIT7".toList
  | bitCount => "BITCOUNT".toList
  | lower4 => "LOWER4".toList
  | upper4 => "UPPER4".toList
  | bits8 => "BIT8".toList
  | bits16 => "BIT16".toList
  | bits24 => "BIT24".toList
  | bits32 => "BIT32".toList
  | bits16BE => "BIT16_BE".toList
  | bits24BE => "BIT24_BE".toList
  | bits32BE => "BIT32_BE".toList
  | float => "FLOAT".toList
  | floatBE => "FLOAT_BE".toList
  | double32 => "DOUBLE32".toList
  | double32BE => "DOUBLE32_BE".toList
  | mbf32 => "MBF32".toList
  | mbf32LE => "MBF32_LE".toList

def readsFloat : Size → Bool
  | float | floatBE | double32 | double32BE | mbf32 | mbf32LE => true
  | _ => false

/-- The kelvin sign is the one character beyond ASCII whose lower-case form can stand in a
token. -/
def foldLetter (c : Char) : Char :=
  if c = '\u212a' then 'k' else c.toLower

/-- Reads a token in any letter case; a space after `0x` spells the 16-bit size out. -/
def ofToken (t : Text) : Except Error Size :=
  let folded := t.map foldLetter
  if folded = ['0', 'x', ' '] then .ok bits16
  else match all.find? (fun size => Text.lower size.token == folded) with
    | some size => .ok size
    | none => .error (.unknownSize t)

theorem ofToken_token (s : Size) : ofToken s.token = .ok s := by
  cases s <;> rfl

end Size

end MemLogic
