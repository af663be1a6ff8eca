import MemLogic.Error
import MemLogic.Text.UpperCase

/-! Flags: what a requirement does beyond being tested. -/

namespace MemLogic

inductive Flag where
  | plain
  | pauseIf
  | resetIf
  | addSource
  | subSource
  | addHits
  | subHits
  | andNext
  | orNext
  | measured
  | measuredIf
  | addAddress
  | trigger
  | resetNextIf
  | measuredPercent
  | remember
  deriving DecidableEq, Repr

namespace Flag

def all : List Flag :=
  [plain, pauseIf, resetIf, addSource, subSource, addHits, subHits, andNext, orNext, measured,
    measuredIf, addAddress, trigger, resetNextIf, measuredPercent, remember]

theorem mem_all (f : Flag) : f ∈ all := by
  cases f <;> decide

/-- The letter written before the colon; only the plain flag has none. -/
def letter : Flag → Text
  | plain => []
  | pauseIf => ['P']
  | resetIf => ['R']
  | addSource => ['A']
  | subSource => ['B']
  | addHits => ['C']
  | subHits => ['D']
  | andNext => ['N']
  | orNext => ['O']
  | measured => ['M']
  | measuredIf => ['Q']
  | addAddress => ['I']
  | trigger => ['T']
  | resetNextIf => ['Z']
  | measuredPercent => ['G']
  | remember => ['K']

/-- The name in tables. -/
def label : Flag → Text
  | plain => []
  | pauseIf => "Pause If".toList
  | resetIf => "ResetIf".toList
  | addSource => "AddSource".toList
  | subSource => "SubSource".toList
  | addHits => "AddHits".toList
  | subHits => "SubHits".toList
  | andNext => "AndNext".toList
  | orNext => "OrNext".toList
  | measured => "Measured".toList
  | measuredIf => "MeasuredIf".toList
  | addAddress => "AddAddress".toList
  | trigger => "Trigger".toList
  | resetNextIf => "ResetNextIf".toList
  | measuredPercent => "Measured%".toList
  | remember => "Remember".toList

/-- The name in descriptions. -/
def tag : Flag → Text
  | plain => "NONE".toList
  | pauseIf => "PAUSE_IF".toList
  | resetIf => "RESET_IF".toList
  | addSource => "ADD_SOURCE".toList
  | subSource => "SUB_SOURCE".toList
  | addHits => "ADD_HITS".toList
  | subHits => "SUB_HITS".toList
  | andNext => "AND_NEXT".toList
  | orNext => "OR_NEXT".toList
  | measured => "MEASURED".toList
  | measuredIf => "MEASURED_IF".toList
  | addAddress => "ADD_ADDRESS".toList
  | trigger => "TRIGGER".toList
  | resetNextIf => "RESET_NEXT_IF".toList
  | measuredPercent => "MEASURED_PERCENT".toList
  | remember => "REMEMBER".toList

/-- Accumulating flags change a running value instead of triggering, and count no hits. -/
def accumulates : Flag → Bool
  | addSource | subSource | addAddress | remember => true
  | _ => false

/-- Reads a letter in either case, through its full upper-case form; no letter is the plain
flag. -/
def ofLetter (t : Text) : Except Error Flag :=
  match all.find? (·.letter == Text.upper t) with
  | some flag => .ok flag
  | none => .error (.unknownFlag (Text.upper t))

theorem ofLetter_letter (f : Flag) : ofLetter f.letter = .ok f := by
  cases f <;> rfl

end Flag

end MemLogic
