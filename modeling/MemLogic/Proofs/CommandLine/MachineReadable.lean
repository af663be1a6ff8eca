import MemLogic.Proofs.CommandLine.Refusal
import MemLogic.Proofs.Condition.Document
import MemLogic.Proofs.Condition.WellFormed
import MemLogic.Proofs.Text.Lines

/-! Machine-readable output: the JSON format tells all of a condition, and the address format lists
its addresses line by line. -/

namespace MemLogic.CommandLine

/-- The lines of the address format: one for each address, and an empty one where there is no
address. -/
def addressLines (c : Condition) : List Text :=
  if c.addresses = [] then [[]] else c.addresses

/-- A text that lists the addresses of a condition. -/
structure Lists (c : Condition) (out : Text) : Prop where
  lines : out.splitOn '\n' = addressLines c ++ [[]]
  blank : out = ['\n'] ↔ c.addresses = []

/-- The arguments ask for the condition of a text in a format, on standard output. -/
def Asks (argv : List Text) (stdin : Text) (format : Format) (t : Text) : Prop :=
  ∃ settings, Settings.read argv = .ok settings ∧ settings.format = format ∧
    settings.output = some ['-'] ∧ conditionText settings stdin = t

variable {place : Text → Except Fault Text} {argv : List Text} {stdin t t' : Text}
  {settings settings' : Settings} {c c' : Condition} {format : Format}

theorem Asks.exists_rendered (h : Asks argv stdin format t) (nonempty : t ≠ [])
    (outcome : Condition.read t = .ok c) (place : Text → Except Fault Text) :
    ∃ settings, settings.format = format ∧
      (run place argv stdin).stdout = render settings c ++ ['\n'] := by
  obtain ⟨settings, read, format, output, text⟩ := h
  refine ⟨settings, format, ?_⟩
  rw [run, read]
  exact congrArg Outcome.stdout ((execute_answers output text).rendered nonempty c outcome)

theorem render_json_inj (json : settings.format = .json) (json' : settings'.format = .json) :
    render settings c = render settings' c' ↔ c = c' := by
  simp only [render, json, json']
  exact Condition.render_document_inj

theorem render_addresses (format : settings.format = .addresses) :
    render settings c ++ ['\n'] = Text.lines (addressLines c) := by
  simp only [render, format, addressLines]
  split
  · rename_i none
    rw [none]
    rfl
  · rename_i some
    exact Text.intercalate_append_newline some

theorem lists_lines (outcome : Condition.read t = .ok c) :
    Lists c (Text.lines (addressLines c)) := by
  have line : ∀ l ∈ addressLines c, '\n' ∉ l := by
    unfold addressLines
    split
    · simp
    · exact fun a member => (Condition.address_line outcome member).2
  refine ⟨Text.splitOn_lines_of_unbroken line, fun blank => ?_, fun none => ?_⟩
  · -- An address in the first line would put something in front of the line break.
    unfold addressLines at blank
    split at blank
    · assumption
    · rename_i some
      obtain ⟨a, rest, same⟩ := List.exists_cons_of_ne_nil some
      obtain ⟨nonempty, unbroken⟩ :=
        Condition.address_line outcome (a := a) (by rw [same]; exact List.mem_cons_self)
      obtain ⟨d, r, rfl⟩ := List.exists_cons_of_ne_nil nonempty
      rw [same] at blank
      obtain rfl : d = '\n' := (List.cons.inj blank).1
      exact absurd List.mem_cons_self unbroken
  · rw [addressLines, if_pos none]
    rfl

theorem Lists.addresses_eq {out : Text} (h : Lists c out) (h' : Lists c' out) :
    c.addresses = c'.addresses := by
  have lines : addressLines c = addressLines c' :=
    List.append_cancel_right (h.lines.symm.trans h'.lines)
  by_cases none : c.addresses = []
  · rw [none, h'.blank.mp (h.blank.mpr none)]
  · have some : c'.addresses ≠ [] := fun none' => none (h.blank.mp (h'.blank.mpr none'))
    rwa [addressLines, addressLines, if_neg none, if_neg some] at lines

theorem Asks.stdout_addresses (h : Asks argv stdin .addresses t) (nonempty : t ≠ [])
    (outcome : Condition.read t = .ok c) :
    (run place argv stdin).stdout = Text.lines (addressLines c) := by
  obtain ⟨settings, format, stdout⟩ := h.exists_rendered nonempty outcome place
  rw [stdout, render_addresses format]

theorem Asks.stdout_eq_nil (h : Asks argv stdin format []) :
    (run place argv stdin).stdout = [] := by
  obtain ⟨settings, read, _, output, text⟩ := h
  rw [run, read]
  exact congrArg Outcome.stdout ((execute_answers output text).empty rfl)

/-- Runs that print JSON print the same only for the same condition, and runs that print addresses
list them, one a line. Blanks at the ends of a text are no part of it, and for no text at all
nothing is printed. -/
theorem machine_readable_lossless (outcome : Condition.read t = .ok c)
    (outcome' : Condition.read t' = .ok c') (place : Text → Except Fault Text) :
    (∀ settings settings' : Settings, settings.format = .json → settings'.format = .json →
      (render settings c = render settings' c' ↔ c = c')) ∧
    (t ≠ [] → t' ≠ [] → ∀ argv stdin argv' stdin',
      Asks argv stdin .json t → Asks argv' stdin' .json t' →
      ((run place argv stdin).stdout = (run place argv' stdin').stdout ↔ c = c')) ∧
    (t ≠ [] → ∀ argv stdin, Asks argv stdin .addresses t →
      Lists c (run place argv stdin).stdout ∧ ∀ a ∈ c.addresses, a ≠ [] ∧ '\n' ∉ a) ∧
    (t ≠ [] → t' ≠ [] → ∀ argv stdin argv' stdin',
      Asks argv stdin .addresses t → Asks argv' stdin' .addresses t' →
      ((run place argv stdin).stdout = (run place argv' stdin').stdout ↔
        c.addresses = c'.addresses)) ∧
    ∀ argv stdin format, Asks argv stdin format [] → (run place argv stdin).stdout = [] := by
  refine ⟨fun _ _ => render_json_inj, ?_, ?_, ?_, fun _ _ _ asks => asks.stdout_eq_nil⟩
  · intro nonempty nonempty' _ _ _ _ asks asks'
    obtain ⟨settings, json, stdout⟩ := asks.exists_rendered nonempty outcome place
    obtain ⟨settings', json', stdout'⟩ := asks'.exists_rendered nonempty' outcome' place
    rw [stdout, stdout', List.append_left_inj]
    exact render_json_inj json json'
  · intro nonempty _ _ asks
    rw [asks.stdout_addresses nonempty outcome]
    exact ⟨lists_lines outcome, fun _ member => Condition.address_line outcome member⟩
  · intro nonempty nonempty' _ _ _ _ asks asks'
    rw [asks.stdout_addresses nonempty outcome, asks'.stdout_addresses nonempty' outcome']
    constructor
    · intro same
      exact (lists_lines outcome).addresses_eq (same ▸ lists_lines outcome')
    · intro same
      rw [addressLines, addressLines, same]

/-- Two spellings of one condition, in an argument and on standard input. -/
theorem machine_readable_two_spellings :
    (run .ok ["-f".toList, "json".toList, "0xH1=d0xh2 ".toList] []).stdout =
      (run .ok ["--format=json".toList, "-".toList] "0xh1=D0xH2.0.\n".toList).stdout ∧
    ((run .ok ["-faddresses".toList, "0xH1=d0xh2".toList] []).stdout).splitOn '\n' =
      ["0x000001".toList, "0x000002".toList, []] := by
  have outcome : Condition.read "0xH1=d0xh2".toList = .ok ⟨[[⟨.plain,
      ⟨.mem, some .bits8, "0x000001".toList⟩, .eq, ⟨.delta, some .bits8, "0x000002".toList⟩,
      some 0⟩]], ["0x000001".toList, "0x000002".toList]⟩ := by decide +kernel
  have outcome' : Condition.read "0xh1=D0xH2.0.".toList = .ok ⟨[[⟨.plain,
      ⟨.mem, some .bits8, "0x000001".toList⟩, .eq, ⟨.delta, some .bits8, "0x000002".toList⟩,
      some 0⟩]], ["0x000001".toList, "0x000002".toList]⟩ := by decide +kernel
  have json : Asks ["-f".toList, "json".toList, "0xH1=d0xh2 ".toList] [] .json
      "0xH1=d0xh2".toList :=
    ⟨⟨"0xH1=d0xh2 ".toList, .json, .markdown, some ['-'], false⟩, by decide +kernel, rfl, rfl,
      by decide +kernel⟩
  have input : Asks ["--format=json".toList, "-".toList] "0xh1=D0xH2.0.\n".toList .json
      "0xh1=D0xH2.0.".toList :=
    ⟨⟨['-'], .json, .markdown, some ['-'], false⟩, by decide +kernel, rfl, rfl,
      by decide +kernel⟩
  have addresses : Asks ["-faddresses".toList, "0xH1=d0xh2".toList] [] .addresses
      "0xH1=d0xh2".toList :=
    ⟨⟨"0xH1=d0xh2".toList, .addresses, .markdown, some ['-'], false⟩, by decide +kernel, rfl, rfl,
      by decide +kernel⟩
  obtain ⟨_, alike, listed, _⟩ := machine_readable_lossless outcome outcome' .ok
  exact ⟨(alike (by decide) (by decide) _ _ _ _ json input).mpr rfl,
    (listed (by decide) _ _ addresses).1.lines⟩

/-- A blank behind a text can change what it reads as, but not what a run on it prints; and the text
that is refused for being empty reads as another does. -/
theorem not_all_texts_printed_apart :
    (¬ ∀ (t t' : Text) (c c' : Condition), Condition.read t = .ok c → Condition.read t' = .ok c' →
      ((run .ok ["-f".toList, "json".toList, t] []).stdout =
        (run .ok ["-f".toList, "json".toList, t'] []).stdout → c = c')) ∧
    (¬ ∀ (t t' : Text) (c c' : Condition), Condition.read t = .ok c → Condition.read t' = .ok c' →
      (c = c' → (run .ok ["-f".toList, "json".toList, t] []).stdout =
        (run .ok ["-f".toList, "json".toList, t'] []).stdout)) ∧
    ¬ ∀ (t : Text) (c : Condition), Condition.read t = .ok c → c.addresses = [] →
      (run .ok ["-f".toList, "addresses".toList, t] []).stdout = ['\n'] := by
  refine ⟨fun apart => ?_, fun alike => ?_, fun listed => ?_⟩
  · have compared : Condition.read "+0x ".toList = .ok ⟨[[⟨.plain, .blank, .add,
        ⟨.mem, some .bits16, []⟩, some 0⟩]], []⟩ := by decide +kernel
    have literal : Condition.read "+0x".toList = .ok ⟨[[⟨.plain,
        ⟨.value, none, "0x000+0x".toList⟩, .eq, .blank, some 0⟩]], []⟩ := by decide +kernel
    exact absurd (apart _ _ _ _ compared literal (by decide +kernel)) (by decide)
  · have empty : Condition.read [] = .ok ⟨[[.vacant]], []⟩ := by decide +kernel
    have underscore : Condition.read ['_'] = .ok ⟨[[.vacant]], []⟩ := by decide +kernel
    exact absurd (alike _ _ _ _ empty underscore rfl) (by decide +kernel)
  · have empty : Condition.read [] = .ok ⟨[[.vacant]], []⟩ := by decide +kernel
    exact absurd (listed _ _ empty rfl) (by decide +kernel)

end MemLogic.CommandLine
