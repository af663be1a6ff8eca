import MemLogic.Error

/-! Comparators, and the operators that accumulate into a running value. -/

namespace MemLogic

inductive Comparator where
  | eq
  | ne
  | lt
  | le
  | gt
  | ge
  | mul
  | div
  | and
  | add
  | sub
  | xor
  | mod
  deriving DecidableEq, Repr

namespace Comparator

def all : List Comparator :=
  [eq, ne, lt, le, gt, ge, mul, div, and, add, sub, xor, mod]

theorem mem_all (c : Comparator) : c ∈ all := by
  cases c <;> decide

def symbol : Comparator → Text
  | eq => "=".toList
  | ne => "!=".toList
  | lt => "<".toList
  | le => "<=".toList
  | gt => ">".toList
  | ge => ">=".toList
  | mul => "*".toList
  | div => "/".toList
  | and => "&".toList
  | add => "+".toList
  | sub => "-".toList
  | xor => "^".toList
  | mod => "%".toList

/-- The name in descriptions of the set of comparators. -/
def tag : Comparator → Text
  | eq => "EQ".toList
  | ne => "NE".toList
  | lt => "LT".toList
  | le => "LE".toList
  | gt => "GT".toList
  | ge => "GE".toList
  | mul => "MUL".toList
  | div => "DIV".toList
  | and => "AND".toList
  | add => "ADD".toList
  | sub => "SUB".toList
  | xor => "XOR".toList
  | mod => "MOD".toList

/-- Operators combine two values; under an accumulating flag only they have a use. -/
def isOperator : Comparator → Bool
  | mul | div | and | add | sub | xor | mod => true
  | _ => false

/-- No symbol, and the doubled equals sign, read as equality. -/
def ofSymbol (t : Text) : Except Error Comparator :=
  if t = [] ∨ t = ['=', '='] then .ok eq
  else match all.find? (·.symbol == t) with
    | some comparator => .ok comparator
    | none => .error (.unknownComparator t)

theorem ofSymbol_symbol (c : Comparator) : ofSymbol c.symbol = .ok c := by
  cases c <;> rfl

end Comparator

end MemLogic
