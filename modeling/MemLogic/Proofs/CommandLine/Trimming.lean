import MemLogic.Proofs.CommandLine.Refusal
import MemLogic.Proofs.Condition.Trimmed

/-! Trimmed input: a run on a text that is a condition, whatever blank it ends with, prints one, and
it is the same unless the text loses a sign. -/

namespace MemLogic.CommandLine
open Text Choice

variable {place : Text → Except Fault Text} {settings : Settings} {argv : List Text}
  {stdin t : Text} {c : Condition}

theorem run_of_read (read : Settings.read argv = .ok settings)
    (text : conditionText settings stdin = t) (nonempty : t ≠ [])
    (outcome : Condition.read t = .ok c) :
    run place argv stdin = deliver place settings.output
      (shownLog settings.verbose (Condition.journal t)) (render settings c ++ ['\n']) := by
  obtain ⟨d, r, rfl⟩ := List.exists_cons_of_ne_nil nonempty
  rw [run, read]
  simp only [execute, text, answer, outcome]

/-- Runs that are given the text deliver the condition: to wherever the arguments say, and with exit
status zero where they leave it to standard output. -/
structure Delivers (place : Text → Except Fault Text) (t : Text) (c : Condition) : Prop where
  anywhere : ∀ argv stdin settings, Settings.read argv = .ok settings →
    (if settings.condition = ['-'] then stdin else settings.condition) = t →
    run place argv stdin = deliver place settings.output
      (shownLog settings.verbose (Condition.journal (trim t))) (render settings c ++ ['\n'])
  printed : ∀ cs ds ts us w stdin, Row cs ts → Row ds us → w = ['-'] ∨ w.head? ≠ some '-' →
    (if w = ['-'] then stdin else w) = t →
    run place (ts ++ w :: us) stdin =
      ⟨.ok 0, render (Choice.settings w (cs ++ ds)) c ++ ['\n'],
        shownLog (Choice.settings w (cs ++ ds)).verbose (Condition.journal (trim t)), none⟩

theorem delivers_of_read (present : trim t ≠ []) (outcome : Condition.read (trim t) = .ok c) :
    Delivers place t c where
  anywhere _ _ _ read text := run_of_read read (congrArg trim text) present outcome
  printed _ _ _ _ _ _ before after word text :=
    run_of_read (Settings.read_row before after word) (congrArg trim text) present outcome

/-- Trimming leaves a condition of each text that is one. It takes off a single space at most, which
spells out a size, and with it the comparison where that is a sign that reads as part of a value
without the space; any other condition is the same. A run on the text delivers what is left. -/
theorem run_trims (outcome : Condition.read t = .ok c) (nonempty : t ≠ [])
    (place : Text → Except Fault Text) :
    trim t ≠ [] ∧ (trim t = t ∨ t = trim t ++ [' '] ∧ Group.EndsInHexMark (trim t)) ∧
    ∃ c', Condition.read (trim t) = .ok c' ∧ (c' = c ↔ ¬ Condition.LosesSign t) ∧
      Delivers place t c' := by
  obtain ⟨present, cases, c', outcome', unchanged⟩ := Condition.read_trim outcome nonempty
  exact ⟨present, cases, c', outcome', unchanged, delivers_of_read present outcome'⟩

/-- The space of a size at the end of standard input, where the operand is read without it. -/
theorem run_trims_size_space :
    ¬ Condition.LosesSign "0xH1=0x ".toList ∧
    (run .ok ["-vfaddresses".toList, ['-'], "--pl".toList] "0xH1=0x ".toList).status = .ok 0 ∧
    (run .ok ["-vfaddresses".toList, ['-'], "--pl".toList] "0xH1=0x ".toList).stdout =
      "0x000001\n".toList := by
  have outcome : Condition.read "0xH1=0x ".toList = .ok ⟨[[⟨.plain, ⟨.mem, some .bits8,
      "0x000001".toList⟩, .eq, ⟨.mem, some .bits16, []⟩, some 0⟩]], ["0x000001".toList]⟩ := by
    decide +kernel
  have trimmed : Condition.read (trim "0xH1=0x ".toList) = .ok ⟨[[⟨.plain, ⟨.mem, some .bits8,
      "0x000001".toList⟩, .eq, ⟨.mem, some .bits16, []⟩, some 0⟩]], ["0x000001".toList]⟩ := by
    decide +kernel
  have before : Row (List.replicate 1 .verbose ++ [.format .addresses] ++ [])
      (["-vfaddresses".toList] ++ []) := .cons (.joined 1 .addresses) .nil
  have after : Row ([.plain] ++ []) (["--pl".toList] ++ []) :=
    .cons (.plain ⟨by decide, by decide⟩) .nil
  obtain ⟨_, _, c', outcome', unchanged, delivers⟩ := run_trims outcome (by decide) .ok
  obtain rfl := Except.ok.inj (outcome'.symm.trans trimmed)
  have ended := delivers.printed _ _ _ _ ['-'] "0xH1=0x ".toList before after (.inl rfl) rfl
  exact ⟨unchanged.mp rfl, congrArg Outcome.status ended,
    (congrArg Outcome.stdout ended).trans (by decide)⟩

/-- A sign with a size behind it, of which the space is trimmed, is a value. -/
theorem not_all_trimmed_alike :
    (¬ ∀ (t : Text) (c : Condition), t ≠ [] → Condition.read t = .ok c →
      Condition.read (trim t) = .ok c) ∧
    ¬ ∀ (t : Text) (c : Condition), t ≠ [] → t.head? ≠ some '-' → Condition.read t = .ok c →
      (run .ok ["-f".toList, "json".toList, t] []).stdout = c.document.render ++ ['\n'] := by
  have compared : Condition.read "+0x ".toList = .ok ⟨[[⟨.plain, .blank, .add,
      ⟨.mem, some .bits16, []⟩, some 0⟩]], []⟩ := by decide +kernel
  refine ⟨fun alike => ?_, fun rendered => ?_⟩
  · have literal : Condition.read (trim "+0x ".toList) = .ok ⟨[[⟨.plain,
        ⟨.value, none, "0x000+0x".toList⟩, .eq, .blank, some 0⟩]], []⟩ := by decide +kernel
    exact absurd (literal.symm.trans (alike _ _ (by decide) compared)) (by decide)
  · exact absurd (rendered _ _ (by decide) (by decide) compared) (by decide +kernel)

end MemLogic.CommandLine
