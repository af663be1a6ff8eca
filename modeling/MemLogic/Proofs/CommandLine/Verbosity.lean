import MemLogic.Proofs.CommandLine.Choices
import MemLogic.Proofs.CommandLine.SideBySide
import MemLogic.Proofs.Text.Lines
import Mathlib.Data.List.Flatten

/-! Verbosity: a verbose run ends like the other one and differs from it in the log alone, to which
it adds lines. -/

namespace MemLogic.CommandLine
open Argument Settings Choice

/-- The same end of a run, with no more than what is in the log of the other one, in order. -/
structure Quieter (o o' : Outcome) : Prop where
  status : o.status = o'.status
  stdout : o.stdout = o'.stdout
  file : o.file = o'.file
  stderr : o.stderr.Sublist o'.stderr

theorem Quieter.refl (o : Outcome) : Quieter o o :=
  ⟨rfl, rfl, rfl, List.Sublist.refl _⟩

theorem Quieter.lines {o o' : Outcome} (h : Quieter o o') :
    ((Text.lines o.stderr).splitOn '\n').Sublist ((Text.lines o'.stderr).splitOn '\n') := by
  rw [Text.splitOn_lines, Text.splitOn_lines]
  exact (h.stderr.flatMap _).append (List.Sublist.refl _)

variable {place : Text → Except Fault Text} {settings : Settings}

theorem shownLog_sublist (verbose : Bool) (events : List Condition.Event) :
    (shownLog verbose events).Sublist (shownLog true events) := by
  refine List.Sublist.map _ (List.monotone_filter_right events ?_)
  intro event _
  rfl

theorem deliver_quieter (output : Option Text) {log log' : List Text} (h : log.Sublist log')
    (t : Text) : Quieter (deliver place output log t) (deliver place output log' t) := by
  unfold deliver
  split
  · exact ⟨rfl, rfl, rfl, h⟩
  · split
    · exact ⟨rfl, rfl, rfl, h⟩
    · split
      · exact ⟨rfl, rfl, rfl, h.append (List.Sublist.refl _)⟩
      · exact ⟨rfl, rfl, rfl, h⟩

theorem answer_quieter (settings : Settings) (t : Text) : Quieter
    (answer place settings t) (answer place { settings with verbose := true } t) := by
  have log := shownLog_sublist settings.verbose (Condition.journal t)
  unfold answer
  cases Condition.read t with
  | ok c => exact deliver_quieter settings.output log (render settings c ++ ['\n'])
  | error e => cases e with
    | noShape segment => exact ⟨rfl, rfl, rfl, log.append (List.Sublist.refl _)⟩
    | _ => exact ⟨rfl, rfl, rfl, log⟩

theorem execute_quieter (settings : Settings) (stdin : Text) : Quieter
    (execute place settings stdin) (execute place { settings with verbose := true } stdin) := by
  have text : conditionText { settings with verbose := true } stdin =
      conditionText settings stdin := rfl
  unfold execute
  rw [text]
  split
  · exact .refl _
  · exact answer_quieter settings _

/-- Reading does not look at whether the log is verbose. -/
theorem kept_verbose : Kept (fun p q => q = { p with verbose := true }) fun _ => True where
  free := by rintro p q rfl; rfl
  condition _ := by rintro rfl _; rfl
  stray _ := by rintro rfl; rfl
  plain := by rintro p q rfl; rfl
  verbose := by rintro p q rfl; rfl
  format _ _ := by rintro rfl; rfl
  output _ _ := by rintro rfl; rfl

theorem finish_verbose (p q : Progress) (h : q = { p with verbose := true }) :
    finish q = (finish p).map fun settings => { settings with verbose := true } := by
  subst h
  refine finish_eq_map rfl .rfl fun w w' taken taken' => ?_
  obtain rfl := Option.some.inj (taken.symm.trans taken')
  rfl

theorem Settings.read_verbose (argv : List Text) :
    read ("-v".toList :: argv) =
      (read argv).map fun settings => { settings with verbose := true } := by
  have spelled : ofText "-v".toList = .ok (.option .verbose .absent) := by decide +kernel
  have texts : ofTexts argv = (ofTexts argv).map ([] ++ ·) := by cases ofTexts argv <;> rfl
  refine read_map texts (ofTexts_cons spelled (by decide) argv) (fun arguments _ => ?_)
    finish_verbose
  have first : consume .start ([.option .verbose .absent] ++ arguments) =
      consume { Progress.start with verbose := true } arguments :=
    consume.eq_9 .start .verbose .absent arguments [.verbose] rfl
  rw [List.nil_append, first]
  exact kept_verbose.run arguments (fun _ _ _ _ => trivial) rfl

/-- A run that is asked first to be verbose has the same exit status or fault, standard output and
files as without it, whatever the arguments; and the lines it writes to standard error are those
of the other run, in order, with others between them. -/
theorem run_verbose (place : Text → Except Fault Text) (argv : List Text) (stdin : Text) :
    Quieter (run place argv stdin) (run place ("-v".toList :: argv) stdin) ∧
    ((Text.lines (run place argv stdin).stderr).splitOn '\n').Sublist
      ((Text.lines (run place ("-v".toList :: argv) stdin).stderr).splitOn '\n') := by
  have quieter : Quieter (run place argv stdin) (run place ("-v".toList :: argv) stdin) := by
    unfold run
    rw [Settings.read_verbose]
    cases read argv with
    | ok settings => exact execute_quieter settings stdin
    | error stop => exact .refl _
  exact ⟨quieter, quieter.lines⟩

end MemLogic.CommandLine
