import MemLogic.CommandLine.Argument
import MemLogic.Condition.Table

/-! Reading the arguments from left to right into settings. -/

namespace MemLogic.CommandLine

/-- What a run is asked to do. The output has no path where the value given for it is lost. -/
structure Settings where
  condition : Text
  format : Format
  style : Style
  output : Option Text
  verbose : Bool
  deriving DecidableEq, Repr

/-- Why arguments give no settings: the help is asked for, or they are at fault. -/
inductive Stop where
  | help
  | usage (e : UsageError)
  deriving DecidableEq, Repr

/-- Settings on the way, with the arguments that found no place. -/
structure Progress where
  condition : Option Text
  format : Format
  style : Style
  output : Option Text
  verbose : Bool
  strays : List Text
  deriving DecidableEq, Repr

namespace Progress

def start : Progress :=
  ⟨none, .text, .markdown, some ['-'], false, []⟩

def stray (p : Progress) (t : Text) : Progress :=
  { p with strays := p.strays ++ [t] }

def flag (p : Progress) : Switch → Except Stop Progress
  | .help => .error .help
  | .plain => .ok { p with style := .plain }
  | .verbose => .ok { p with verbose := true }
  | .format | .output => .ok p

/-- A value that is spelled like the separator is lost: the format is then as if none were asked
for, and the output has no path. -/
def assign (p : Progress) (s : Switch) (value : Text) : Except Stop Progress :=
  match s with
  | .format =>
    if value = ['-', '-'] then .ok { p with format := .text }
    else match Format.ofWord? value with
      | some format => .ok { p with format := format }
      | none => .error (.usage (.unknownFormat value))
  | .output => .ok { p with output := if value = ['-', '-'] then none else some value }
  | .help | .plain | .verbose => .ok p

end Progress

/-- How an option argument ends: with a plain option, with a value, or in need of one. -/
inductive Ending where
  | closed
  | value (s : Switch) (t : Text)
  | wanting (s : Switch)
  deriving DecidableEq, Repr

/-- The options of one argument: those without a value, in order, and how it ends. -/
structure Bundle where
  flags : List Switch
  ending : Ending
  deriving DecidableEq, Repr

namespace Bundle

def alone (s : Switch) : Bundle :=
  if s.takesValue then ⟨[], .wanting s⟩ else ⟨[s], .closed⟩

def assigned (s : Switch) (value : Text) : Except UsageError Bundle :=
  if s.takesValue then .ok ⟨[], .value s value⟩ else .error (.surplusValue s value)

/-- Text joined to a short option is its value, or else the letters of further short options. -/
def joined (s : Switch) (t : Text) : Except UsageError Bundle :=
  if s.takesValue then .ok ⟨[], .value s t⟩
  else match t with
    | [] => .error (.surplusValue s t)
    | c :: r =>
      match Switch.ofSpelling? ['-', c] with
      | none => .error (.surplusValue s t)
      | some next => do
        let rest ← if r = [] then .ok (alone next) else joined next r
        return ⟨s :: rest.flags, rest.ending⟩

def ofOption (s : Switch) : Attachment → Except UsageError Bundle
  | .absent => .ok (alone s)
  | .assigned value => assigned s value
  | .joined t => joined s t

end Bundle

namespace Settings

def liftUsage {α : Type} : Except UsageError α → Except Stop α
  | .ok a => .ok a
  | .error e => .error (.usage e)

/-- Acts on the arguments in order. The first free word is the condition, with a separator next
to it; a bundle is read to its end before any of its options acts. -/
def consume (p : Progress) : List Argument → Except Stop Progress
  | [] => .ok p
  | .word t :: rest =>
    match p.condition, rest with
    | none, .separator :: rest => consume { p with condition := some t } rest
    | none, rest => consume { p with condition := some t } rest
    | some _, rest => consume (p.stray t) rest
  | .separator :: rest =>
    match p.condition, rest with
    | none, .word t :: rest => consume { p with condition := some t } rest
    | _, rest => consume (p.stray ['-', '-']) rest
  | .unknown t :: rest => consume (p.stray t) rest
  | .option s attachment :: rest =>
    match Bundle.ofOption s attachment, rest with
    | .error e, _ => .error (.usage e)
    | .ok ⟨flags, .closed⟩, rest => do consume (← flags.foldlM Progress.flag p) rest
    | .ok ⟨flags, .value s t⟩, rest => do
      consume (← (← flags.foldlM Progress.flag p).assign s t) rest
    | .ok ⟨flags, .wanting s⟩, .word t :: rest => do
      consume (← (← flags.foldlM Progress.flag p).assign s t) rest
    | .ok ⟨_, .wanting s⟩, _ => .error (.usage (.missingValue s))

/-- A missing condition is reported before arguments that found no place. -/
def finish (p : Progress) : Except UsageError Settings :=
  match p.condition with
  | none => .error .missingCondition
  | some condition =>
    if p.strays = [] then .ok ⟨condition, p.format, p.style, p.output, p.verbose⟩
    else .error (.unrecognized p.strays)

/-- All arguments are classified before any of them acts. -/
def read (argv : List Text) : Except Stop Settings := do
  let arguments ← liftUsage (Argument.ofTexts argv)
  liftUsage (finish (← consume .start arguments))

end Settings

end MemLogic.CommandLine
