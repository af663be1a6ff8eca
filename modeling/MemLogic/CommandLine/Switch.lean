import MemLogic.Error

/-! The options of the command line, their spellings and their faults. -/

namespace MemLogic.CommandLine

inductive Switch where
  | help
  | format
  | plain
  | output
  | verbose
  deriving DecidableEq, Repr

namespace Switch

def all : List Switch :=
  [help, format, plain, output, verbose]

def spellings : Switch → List Text
  | help => ["-h".toList, "--help".toList]
  | format => ["--format".toList, "-f".toList]
  | plain => ["--plain".toList]
  | output => ["--output".toList, "-o".toList]
  | verbose => ["--verbose".toList, "-v".toList]

def takesValue : Switch → Bool
  | format | output => true
  | help | plain | verbose => false

/-- All spellings in one, for messages. -/
def name (s : Switch) : Text :=
  List.intercalate ['/'] s.spellings

def ofSpelling? (t : Text) : Option Switch :=
  all.find? (·.spellings.contains t)

end Switch

/-- Output formats. -/
inductive Format where
  | text
  | json
  | addresses
  deriving DecidableEq, Repr

namespace Format

def all : List Format :=
  [text, json, addresses]

theorem mem_all (f : Format) : f ∈ all := by
  cases f <;> decide

def word : Format → Text
  | text => "text".toList
  | json => "json".toList
  | addresses => "addresses".toList

def ofWord? (t : Text) : Option Format :=
  all.find? (·.word == t)

end Format

/-- What is wrong with a list of arguments. -/
inductive UsageError where
  | ambiguous (argument : Text) (spellings : List Text)
  | missingValue (s : Switch)
  | surplusValue (s : Switch) (value : Text)
  | unknownFormat (value : Text)
  | missingCondition
  | unrecognized (arguments : List Text)
  deriving DecidableEq, Repr

def UsageError.message : UsageError → Text
  | ambiguous argument spellings =>
    "ambiguous option: ".toList ++ argument ++ " could match ".toList ++
      List.intercalate ", ".toList spellings
  | missingValue s => "argument ".toList ++ s.name ++ ": expected one argument".toList
  | surplusValue s value =>
    "argument ".toList ++ s.name ++ ": ignored explicit argument ".toList ++ Text.quote value
  | unknownFormat value =>
    "argument ".toList ++ Switch.format.name ++ ": invalid choice: ".toList ++ Text.quote value ++
      " (choose from ".toList ++
      List.intercalate ", ".toList (Format.all.map (Text.quote ·.word)) ++ [')']
  | missingCondition => "the following arguments are required: mem".toList
  | unrecognized arguments =>
    "unrecognized arguments: ".toList ++ List.intercalate [' '] arguments

end MemLogic.CommandLine
