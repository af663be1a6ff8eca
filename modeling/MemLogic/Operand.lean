import MemLogic.Size

/-! Operands: what a requirement compares or accumulates. -/

namespace MemLogic

/-- What an operand stands for: memory, read or changed in some way, or a value of its own. -/
inductive Kind where
  | mem
  | delta
  | prior
  | bcd
  | inverted
  | float
  | value
  | recalled
  | named
  deriving DecidableEq, Repr

namespace Kind

def all : List Kind :=
  [mem, delta, prior, bcd, inverted, float, value, recalled, named]

theorem mem_all (k : Kind) : k ∈ all := by
  cases k <;> decide

/-- The name in documents. -/
def word : Kind → Text
  | mem => "mem".toList
  | delta => "delta".toList
  | prior => "prior".toList
  | bcd => "bcd".toList
  | inverted => "inverted".toList
  | float => "float".toList
  | value => "value".toList
  | recalled => "recall".toList
  | named => "variable".toList

/-- The name in tables. -/
def label : Kind → Text
  | mem => "Mem".toList
  | delta => "Delta".toList
  | prior => "Prior".toList
  | bcd => "BCD".toList
  | inverted => "Inverted".toList
  | float => "Float".toList
  | value => "Value".toList
  | recalled => "Recall".toList
  | named => "Variable".toList

/-- The name in descriptions. -/
def tag (kind : Kind) : Text :=
  kind.word.map Char.toUpper

/-- Kinds that can refer to memory. -/
def readsMemory : Kind → Bool
  | mem | delta | prior | bcd | inverted | float => true
  | value | recalled | named => false

end Kind

/-- Any kind, size and value can be put together; reading a condition yields only some of the
combinations. -/
structure Operand where
  kind : Kind
  size : Option Size
  value : Text
  deriving DecidableEq, Repr

namespace Operand

/-- The value that stands where nothing is written. -/
def blank : Operand :=
  ⟨.value, none, []⟩

def isFloatText (o : Operand) : Bool :=
  o.kind == .float && o.size.isNone

def refersToMemory (o : Operand) : Bool :=
  o.kind.readsMemory && !o.isFloatText

/-- Memory references without a payload have no address. -/
def address? (o : Operand) : Option Text :=
  if o.refersToMemory && !o.value.isEmpty then some o.value else none

def name? (o : Operand) : Option Text :=
  if o.kind = .named then some o.value else none

end Operand

end MemLogic
