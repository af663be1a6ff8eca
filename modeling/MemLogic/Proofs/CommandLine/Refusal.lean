import MemLogic.CommandLine.Run
import MemLogic.Proofs.CommandLine.Choices
import MemLogic.Proofs.Condition.FirstFailure
import MemLogic.Proofs.Group.Blanks

/-! Refusal: how a run ends that is given a text. It has an exit status unless a number of too many
digits is met. -/

namespace MemLogic
open Text

theorem Text.trim_eq_self {t : Text} (h : ∀ c ∈ t, isBlank c = false) : trim t = t :=
  (Group.blanksMarked_of_forall h).trim_eq_self fun c last => h c (List.mem_of_getLast? last)

theorem Text.isBlank_of_isDigit {c : Char} (h : c.isDigit) : isBlank c = false :=
  isBlank_of_isAlphanum (by simp [Char.isAlphanum, h])

namespace Condition

variable {t : Text}

/-- A condition that is nothing but too many digits. -/
theorem read_digits (digit : ∀ d ∈ t, d.isDigit) (long : Numeral.maxDigits < t.length) :
    read t = .error (.tooManyDigits t.length) := by
  have nonempty : t ≠ [] := by
    rintro rfl
    exact absurd long (by simp)
  have decimal : Operand.IsDecimal t t := ⟨[], [], .inl rfl, .inl rfl, nonempty, digit, rfl⟩
  have operand : Operand.read t = .error (.tooManyDigits t.length) :=
    Operand.read_eq_tooManyDigits.mpr ⟨t, decimal, rfl, long⟩
  -- The left operand is the whole text, and no other can be longer.
  have longest : Requirement.Reading.IsLongest ⟨[], t, none, []⟩ t := by
    refine ⟨⟨.inl rfl, fun segment => ?_, fun _ _ same => absurd same (by simp), .inl rfl⟩, ?_, ?_⟩
    · rw [operand]
      simp
    · simp [Requirement.Reading.text, Requirement.Reading.comparisonText]
    · intro r _ text
      have length := congrArg List.length text
      simp only [Requirement.Reading.text, List.length_append] at length
      show r.left.length ≤ t.length
      omega
  have separated : ∀ c ∈ "S_".toList, c ∉ t := by
    intro c member inside
    have other : ∀ c ∈ "S_".toList, c.isDigit = false := by decide
    exact absurd (digit c inside) (by simp [other c member])
  have whole : Group.Whole t := Group.whole_of_not_mem (separated 'S' (by decide))
  refine read_eq_error.mpr ⟨[], t, [], ?_, by simp, longest.read_eq_error.mpr (.left operand)⟩
  rw [segments, whole.split_eq, List.flatMap_singleton,
    Group.segments_eq_singleton (separated '_' (by decide)) nonempty]
  rfl

end Condition

namespace CommandLine
open Choice

/-- How a run ends that takes the text for a condition and writes to standard output. -/
structure Answers (settings : Settings) (t : Text) (o : Outcome) : Prop where
  empty : t = [] → o = ⟨.ok 2, [], ["error: empty Mem string".toList], none⟩
  rendered : t ≠ [] → ∀ c, Condition.read t = .ok c →
    o = ⟨.ok 0, render settings c ++ ['\n'],
      shownLog settings.verbose (Condition.journal t), none⟩
  refused : ∀ segment, Condition.read t = .error (.noShape segment) →
    o = ⟨.ok 1, [], shownLog settings.verbose (Condition.journal t) ++
      ["error: ".toList ++ (Error.noShape segment).message], none⟩
  escaped : ∀ n, Condition.read t = .error (.tooManyDigits n) →
    o = ⟨.error (.unreadable (.tooManyDigits n)), [],
      shownLog settings.verbose (Condition.journal t), none⟩

variable {place : Text → Except Fault Text} {settings : Settings} {stdin t : Text}

theorem execute_answers (output : settings.output = some ['-'])
    (text : conditionText settings stdin = t) :
    Answers settings t (execute place settings stdin) := by
  unfold execute
  rw [text]
  cases t with
  | nil =>
    -- The empty text would be read, so that the other cases do not arise.
    have vacant : ∃ c, Condition.read [] = .ok c := ⟨_, rfl⟩
    obtain ⟨c, outcome⟩ := vacant
    refine ⟨fun _ => rfl, fun other => absurd rfl other, fun _ fails => ?_, fun _ fails => ?_⟩
    · exact absurd (outcome.symm.trans fails) (by simp)
    · exact absurd (outcome.symm.trans fails) (by simp)
  | cons d t =>
    refine ⟨fun empty => absurd empty (by simp), fun _ c outcome => ?_, fun _ fails => ?_,
      fun _ fails => ?_⟩
    · simp [answer, outcome, deliver, output]
    · simp [answer, fails]
    · simp [answer, fails]

/-- A run on a text, in an argument or on standard input, ends as its condition is read: with an
exit status, unless the first segment that fails has a number of too many digits. Then it ends with
a fault and no exit status. -/
theorem run_answers {cs ds : List Choice} {ts us : List Text} {w : Text} (before : Row cs ts)
    (after : Row ds us) (word : w = ['-'] ∨ w.head? ≠ some '-') (place : Text → Except Fault Text)
    (stdin t : Text) (text : trim (if w = ['-'] then stdin else w) = t) :
    Answers (Choice.settings w (cs ++ ds)) t (run place (ts ++ w :: us) stdin) ∧
    ((∃ c, Condition.read t = .ok c) ∨
      (∃ segment ∈ Condition.segments t, Condition.read t = .error (.noShape segment)) ∨
      ∃ n, Numeral.maxDigits < n ∧ Condition.read t = .error (.tooManyDigits n)) ∧
    ((∃ status, (run place (ts ++ w :: us) stdin).status = .ok status) ↔
      ∀ n, Condition.read t ≠ .error (.tooManyDigits n)) := by
  have ends : Answers (Choice.settings w (cs ++ ds)) t (run place (ts ++ w :: us) stdin) := by
    rw [run, Settings.read_row before after word]
    exact execute_answers rfl text
  have cases : (∃ c, Condition.read t = .ok c) ∨
      (∃ segment ∈ Condition.segments t, Condition.read t = .error (.noShape segment)) ∨
      ∃ n, Numeral.maxDigits < n ∧ Condition.read t = .error (.tooManyDigits n) := by
    cases outcome : Condition.read t with
    | ok c => exact .inl ⟨c, rfl⟩
    | error e =>
      rcases Condition.read_error_cases outcome with ⟨segment, member, rfl⟩ | ⟨n, long, rfl⟩
      · exact .inr (.inl ⟨segment, member, rfl⟩)
      · exact .inr (.inr ⟨n, long, rfl⟩)
  refine ⟨ends, cases, ?_, ?_⟩
  · rintro ⟨status, ended⟩ n fails
    rw [ends.escaped n fails] at ended
    exact absurd ended (by simp)
  · intro short
    rcases cases with ⟨c, outcome⟩ | ⟨segment, _, fails⟩ | ⟨n, _, fails⟩
    · by_cases empty : t = []
      · exact ⟨2, by rw [ends.empty empty]⟩
      · exact ⟨0, by rw [ends.rendered empty c outcome]⟩
    · exact ⟨1, by rw [ends.refused segment fails]⟩
    · exact absurd fails (short n)

/-- Short options in one argument before the condition, and a cut long one behind it. -/
theorem run_answers_short_options :
    (run .ok ["-vfaddresses".toList, " 0xH1=d0xH2".toList, "--pl".toList] []).status = .ok 0 ∧
    (run .ok ["-vfaddresses".toList, " 0xH1=d0xH2".toList, "--pl".toList] []).stdout =
      "0x000001\n0x000002\n".toList := by
  have before : Row (List.replicate 1 .verbose ++ [.format .addresses] ++ [])
      (["-vfaddresses".toList] ++ []) := .cons (.joined 1 .addresses) .nil
  have after : Row ([.plain] ++ []) (["--pl".toList] ++ []) :=
    .cons (.plain ⟨by decide, by decide⟩) .nil
  have outcome : Condition.read "0xH1=d0xH2".toList = .ok ⟨[[⟨.plain, ⟨.mem, some .bits8,
      "0x000001".toList⟩, .eq, ⟨.delta, some .bits8, "0x000002".toList⟩, some 0⟩]],
      ["0x000001".toList, "0x000002".toList]⟩ := by decide +kernel
  have answers := (run_answers before after (w := " 0xH1=d0xH2".toList) (.inr (by decide)) .ok []
    "0xH1=d0xH2".toList (by decide +kernel)).1.rendered (by decide) _ outcome
  exact ⟨congrArg Outcome.status answers, (congrArg Outcome.stdout answers).trans (by decide)⟩

/-- Too many digits end a run without an exit status. -/
theorem not_all_runs_have_status :
    ¬ ∀ (place : Text → Except Fault Text) (w stdin : Text), w.head? ≠ some '-' →
      ∃ status, (run place [w] stdin).status = .ok status := by
  intro ends
  have ones : ∀ d ∈ List.replicate 4301 '1', d = '1' := fun _ => List.eq_of_mem_replicate
  have digit : ∀ d ∈ List.replicate 4301 '1', d.isDigit := by
    intro d member
    rw [ones d member]
    decide
  have word : (List.replicate 4301 '1').head? ≠ some '-' := by
    rw [List.replicate_succ]
    decide
  have other : List.replicate 4301 '1' ≠ ['-'] := by
    intro same
    exact word (by rw [same]; rfl)
  have text : trim (if List.replicate 4301 '1' = ['-'] then [] else List.replicate 4301 '1') =
      List.replicate 4301 '1' := by
    rw [if_neg other]
    exact trim_eq_self fun c member => isBlank_of_isDigit (digit c member)
  have long : Numeral.maxDigits < (List.replicate 4301 '1').length := by
    rw [List.length_replicate]
    decide
  have status := ends .ok (List.replicate 4301 '1') [] word
  exact (run_answers .nil .nil (.inr word) .ok [] _ text).2.2.mp status _
    (Condition.read_digits digit long)

end CommandLine
end MemLogic
