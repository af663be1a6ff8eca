import MemLogic.CommandLine.Destination
import MemLogic.CommandLine.Settings
import MemLogic.CommandLine.Usage
import MemLogic.Condition.Document
import MemLogic.Condition.Journal
import MemLogic.Text.Blank

/-! Runs of the command line, from arguments and standard input to all that is written. -/

namespace MemLogic.CommandLine

/-- All that a run leaves behind: its end, standard output, the lines of standard error, and at
most one file with its path and content. -/
structure Outcome where
  status : Except Fault Nat
  stdout : Text
  stderr : List Text
  file : Option (Text × Text)

/-- The readable form of a condition in a format; a table starts with its first heading. -/
def render (settings : Settings) (c : Condition) : Text :=
  match settings.format with
  | .text => (Condition.table settings.style c.groups).dropWhile (· = '\n')
  | .json => c.document.render
  | .addresses => List.intercalate ['\n'] c.addresses

/-- Lines of the log; without verbosity only warnings are shown. -/
def shownLog (verbose : Bool) (events : List Condition.Event) : List Text :=
  (events.filter fun event => verbose || event.isWarning).map Condition.Event.line

/-- Writes to standard output for a dash, and otherwise to where the path leads. -/
def deliver (place : Text → Except Fault Text) (output : Option Text) (log : List Text)
    (t : Text) : Outcome :=
  match output with
  | none => ⟨.error .noPath, [], log, none⟩
  | some path =>
    if path = ['-'] then ⟨.ok 0, t, log, none⟩
    else match place path with
      | .ok target => ⟨.ok 0, [], log ++ ["Output written to ".toList ++ path], some (target, t)⟩
      | .error fault => ⟨.error fault, [], log, none⟩

/-- Reads a condition and delivers it. A segment without a shape ends the run with status one; a
number of too many digits is a fault. -/
def answer (place : Text → Except Fault Text) (settings : Settings) (t : Text) : Outcome :=
  let log := shownLog settings.verbose (Condition.journal t)
  match Condition.read t with
  | .ok c => deliver place settings.output log (render settings c ++ ['\n'])
  | .error (.noShape segment) =>
    ⟨.ok 1, [], log ++ ["error: ".toList ++ (Error.noShape segment).message], none⟩
  | .error e => ⟨.error (.unreadable e), [], log, none⟩

/-- The condition of the settings without blanks at its ends; a dash stands for standard
input. -/
def conditionText (settings : Settings) (stdin : Text) : Text :=
  Text.trim (if settings.condition = ['-'] then stdin else settings.condition)

def execute (place : Text → Except Fault Text) (settings : Settings) (stdin : Text) : Outcome :=
  match conditionText settings stdin with
  | [] => ⟨.ok 2, [], ["error: empty Mem string".toList], none⟩
  | t => answer place settings t

/-- Runs the arguments, with `place` saying where each output path leads. -/
def run (place : Text → Except Fault Text) (argv : List Text) (stdin : Text) : Outcome :=
  match Settings.read argv with
  | .ok settings => execute place settings stdin
  | .error .help => ⟨.ok 0, Text.lines helpLines, [], none⟩
  | .error (.usage e) => ⟨.ok 2, [], e.report, none⟩

/-- Whether the arguments ask for standard input. -/
def readsInput (argv : List Text) : Bool :=
  match Settings.read argv with
  | .ok settings => settings.condition == ['-']
  | .error _ => false

end MemLogic.CommandLine
