import MemLogic.CommandLine.Switch
import MemLogic.Text.DecimalDigit

/-! What each argument is by itself: a word, an option with or without a value of its own, or the
separator after which all are words. -/

namespace MemLogic.CommandLine

/-- Text in the same argument as an option: none, behind the equals sign of a long option, or
joined to a short one, where an equals sign in between makes no difference. -/
inductive Attachment where
  | absent
  | assigned (value : Text)
  | joined (t : Text)
  deriving DecidableEq, Repr

inductive Argument where
  | word (t : Text)
  | option (s : Switch) (attachment : Attachment)
  | unknown (t : Text)
  | separator
  deriving DecidableEq, Repr

namespace Argument

/-- A text before and after its first equals sign. -/
def splitAssigned? (t : Text) : Option (Text × Text) :=
  match t.dropWhile (· ≠ '=') with
  | [] => none
  | _ :: value => some (t.takeWhile (· ≠ '='), value)

/-- Minus and an integer, or minus and a fraction, in digits of any scripts; a final line break
is allowed. -/
def isNegativeNumber (t : Text) : Bool :=
  let isDigit c := (Text.digitValue? c).isSome
  match t with
  | '-' :: r =>
    let digits := if r.getLast? = some '\n' then r.dropLast else r
    match digits.dropWhile isDigit with
    | [] => digits ≠ []
    | '.' :: fraction => fraction ≠ [] && fraction.all isDigit
    | _ => false
  | _ => false

/-- Options whose long spelling starts as the argument does up to its equals sign. -/
def abbreviated (t : Text) : List (Text × Argument) :=
  let (name, attachment) :=
    match splitAssigned? t with
    | some (name, value) => (name, Attachment.assigned value)
    | none => (t, .absent)
  Switch.all.flatMap fun s =>
    (s.spellings.filter (name.isPrefixOf ·)).map fun spelling => (spelling, option s attachment)

/-- The options an argument of at least two characters can stand for, other than by a full
spelling. -/
def candidates (t : Text) : List (Text × Argument) :=
  match t with
  | '-' :: '-' :: _ => abbreviated t
  | '-' :: c :: rest =>
    match Switch.ofSpelling? ['-', c] with
    | some s => [(['-', c], option s (.joined rest))]
    | none => []
  | _ => []

/-- What an option takes along from behind an equals sign. -/
def attach (name value : Text) : Attachment :=
  match name with
  | '-' :: '-' :: _ => .assigned value
  | _ => .joined value

/-- An option spelled in full, alone or in front of an equals sign. -/
def spelled? (t : Text) : Option Argument :=
  match Switch.ofSpelling? t with
  | some s => some (option s .absent)
  | none => do
    let (name, value) ← splitAssigned? t
    let s ← Switch.ofSpelling? name
    return option s (attach name value)

/-- What starts with a dash and has more to it is an option where it can be; a negative number or
a text with a space that is none is a word. -/
def ofText (t : Text) : Except UsageError Argument :=
  match t with
  | '-' :: _ :: _ =>
    match spelled? t with
    | some argument => .ok argument
    | none =>
      match candidates t with
      | [] => .ok (if isNegativeNumber t || t.contains ' ' then word t else unknown t)
      | [(_, argument)] => .ok argument
      | several => .error (.ambiguous t (several.map Prod.fst))
  | _ => .ok (word t)

/-- Classifies arguments up to the first separator; what follows it are words. -/
def ofTexts : List Text → Except UsageError (List Argument)
  | [] => .ok []
  | t :: ts =>
    if t = ['-', '-'] then .ok (separator :: ts.map word)
    else do
      let argument ← ofText t
      return argument :: (← ofTexts ts)

end Argument

end MemLogic.CommandLine
