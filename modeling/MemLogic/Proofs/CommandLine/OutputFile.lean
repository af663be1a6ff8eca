import MemLogic.Proofs.CommandLine.Choices
import MemLogic.Proofs.CommandLine.SideBySide

/-! Output files: naming a file for the output moves there what would be printed, and changes
nothing about how the run ends. -/

namespace MemLogic.CommandLine
open Argument Settings Choice Destination

namespace Destination
variable {name : Text}

/-- A name that a file in the current directory can have. -/
structure IsFileName (name : Text) : Prop where
  present : name ≠ []
  unslashed : '/' ∉ name
  unended : '\x00' ∉ name
  undotted : name ≠ ['.'] ∧ name ≠ ['.', '.']
  short : byteLength name ≤ maxNameBytes

theorem IsFileName.names_eq (h : IsFileName name) : names name = [name] := by
  rw [names, List.splitOn_eq_singleton h.unslashed]
  simp [h.present, h.undotted.1]

theorem IsFileName.root_eq (h : IsFileName name) : root name = [] := by
  have first : ∀ r, name ≠ '/' :: r := by
    rintro r rfl
    exact h.unslashed List.mem_cons_self
  unfold root
  split
  · exact absurd rfl (first _)
  · exact absurd rfl (first _)
  · exact absurd rfl (first _)
  · rfl

theorem IsFileName.shorten_eq (h : IsFileName name) : shorten name = name := by
  rw [shorten, h.root_eq, h.names_eq, List.intercalate_singleton, List.nil_append]
  split
  · exact absurd rfl h.present
  · rfl

/-- A file of its own name is written, in the current directory. -/
theorem IsFileName.inEmptyDirectory_eq (h : IsFileName name) :
    inEmptyDirectory name = .ok name := by
  have path : ¬ maxPathBytes < byteLength name := by
    have short := h.short
    unfold maxPathBytes
    unfold maxNameBytes at short
    omega
  simp [inEmptyDirectory, h.shorten_eq, h.root_eq, h.names_eq, h.unended, path, follow,
    h.undotted.2, h.short]

end Destination

variable {place : Text → Except Fault Text} {name t : Text} {argv argv' : List Text}
  {settings : Settings} {p : Progress}

/-! Where an option can be put. -/

theorem Argument.spelled?_eq_some {a : Argument} (h : spelled? t = some a) :
    ∃ s attachment, a = .option s attachment := by
  unfold spelled? at h
  split at h
  · exact ⟨_, _, (Option.some.inj h).symm⟩
  · simp only [Option.bind_eq_bind, Option.bind_eq_some_iff] at h
    obtain ⟨_, _, s, _, same⟩ := h
    exact ⟨_, _, (Option.some.inj same).symm⟩

theorem Argument.mem_candidates {x : Text × Argument} (h : x ∈ candidates t) :
    ∃ s attachment, x.2 = .option s attachment := by
  unfold candidates at h
  split at h
  · simp only [abbreviated, List.mem_flatMap, List.mem_map] at h
    obtain ⟨s, _, _, _, rfl⟩ := h
    exact ⟨s, _, rfl⟩
  · split at h
    · rw [List.mem_singleton.mp h]
      exact ⟨_, _, rfl⟩
    · exact absurd h List.not_mem_nil
  · exact absurd h List.not_mem_nil

/-- An argument is an option, or is kept as the text that it is. -/
theorem Argument.ofText_cases {a : Argument} (h : ofText t = .ok a) :
    a = .word t ∨ a = .unknown t ∨ ∃ s attachment, a = .option s attachment := by
  unfold ofText at h
  split at h
  · split at h
    · rename_i found
      obtain rfl := Except.ok.inj h
      exact .inr (.inr (spelled?_eq_some found))
    · split at h
      · obtain rfl := Except.ok.inj h
        split
        · exact .inl rfl
        · exact .inr (.inl rfl)
      · rename_i alone
        obtain rfl := Except.ok.inj h
        exact .inr (.inr (mem_candidates (alone ▸ List.mem_singleton_self _)))
      · exact absurd h (by simp)
  · exact .inl (Except.ok.inj h).symm

/-- The first argument is a separator only where the text is. -/
theorem Argument.head?_ofTexts {ts : List Text} {arguments : List Argument}
    (h : ofTexts ts = .ok arguments) (other : ts.head? ≠ some ['-', '-']) :
    arguments.head? ≠ some .separator := by
  cases ts with
  | nil =>
    obtain rfl := Except.ok.inj h
    simp
  | cons t ts =>
    rw [ofTexts, if_neg (by simpa using other)] at h
    obtain ⟨a, first, h⟩ := bind_eq_ok.mp h
    obtain ⟨rest, _, h⟩ := bind_eq_ok.mp h
    obtain rfl := Except.ok.inj h
    rcases ofText_cases first with rfl | rfl | ⟨s, attachment, rfl⟩ <;> simp

/-- Texts that are read, when they come first, into a state from which all goes on that may follow
them. -/
def LeadsTo (ts : List Text) (p : Progress) (follows : List Argument → Prop) : Prop :=
  ∃ first : List Argument, (∀ rest, ofTexts (ts ++ rest) = (ofTexts rest).map (first ++ ·)) ∧
    ∀ rest, follows rest → consume .start (first ++ rest) = consume p rest

theorem Choice.Row.leadsTo {cs : List Choice} {ts : List Text} (row : Row cs ts) :
    LeadsTo ts (cs.foldl act .start) fun _ => True := by
  obtain ⟨first, _, classified, acts⟩ := row.acts
  exact ⟨first, classified, fun rest _ => acts .start rest⟩

/-- Behind the condition a separator would be lost, were there nothing between them. -/
theorem Choice.Row.leadsTo_behind {cs ds : List Choice} {ts us : List Text} {w : Text}
    (before : Row cs ts) (word : ofText w = .ok (.word w)) (after : Row ds us) :
    LeadsTo (ts ++ w :: us) (ds.foldl act { cs.foldl act .start with condition := some w })
      fun rest => rest.head? ≠ some .separator := by
  obtain ⟨first, _, classified, acts⟩ := before.acts
  obtain ⟨last, separated, classified', acts'⟩ := after.acts
  have other : w ≠ ['-', '-'] := by
    rintro rfl
    exact absurd word (by decide +kernel)
  have free : (cs.foldl act .start).condition = none := by
    rw [foldl_act]
    rfl
  refine ⟨first ++ .word w :: last, fun rest => ?_, fun rest follows => ?_⟩
  · rw [List.append_assoc, classified, List.cons_append, ofTexts_cons word other, classified']
    cases ofTexts rest <;> simp [Except.map]
  · have unseparated : (last ++ rest).head? ≠ some .separator := by
      cases last with
      | nil => exact follows
      | cons a last =>
        intro same
        exact separated (List.mem_of_mem_head? (Option.mem_def.mpr same))
    rw [List.append_assoc, acts, List.cons_append, consume_word free unseparated, acts']

/-! Reading with the option and without it. -/

def outputOption (name : Text) : Text :=
  "--output=".toList ++ name

/-- No argument brings a path for the output, or ends wanting one. -/
def LeavesOutput (ts : List Text) : Prop :=
  ∀ arguments, ofTexts ts = .ok arguments → ∀ a ∈ arguments, a.valued? ≠ some .output

/-- An option put among arguments that name no output: behind some of the choices that come first,
or behind the condition. -/
inductive Inserts (option : Text) : List Text → List Text → Prop where
  | before {cs : List Choice} {ts rest : List Text} (row : Row cs ts) (free : LeavesOutput rest) :
    Inserts option (ts ++ rest) (ts ++ option :: rest)
  | behind {cs ds : List Choice} {ts us rest : List Text} {w : Text} (before : Row cs ts)
    (word : ofText w = .ok (.word w)) (after : Row ds us) (free : LeavesOutput rest)
    (unseparated : rest.head? ≠ some ['-', '-']) :
    Inserts option (ts ++ w :: us ++ rest) (ts ++ w :: us ++ option :: rest)

theorem Inserts.exists_leadsTo {option : Text} (h : Inserts option argv argv') :
    ∃ ts p follows rest, argv = ts ++ rest ∧ argv' = ts ++ option :: rest ∧ LeadsTo ts p follows ∧
      p.output = some ['-'] ∧ LeavesOutput rest ∧ (∀ s attachment arguments,
        follows (.option s attachment :: arguments)) ∧
      ∀ arguments, ofTexts rest = .ok arguments → follows arguments := by
  cases h with
  | @before cs ts rest row free =>
    refine ⟨ts, _, _, rest, rfl, rfl, row.leadsTo, ?_, free, fun _ _ _ => trivial,
      fun _ _ => trivial⟩
    rw [foldl_act]
    rfl
  | @behind cs ds ts us rest w before word after free unseparated =>
    refine ⟨ts ++ w :: us, _, _, rest, rfl, rfl, before.leadsTo_behind word after, ?_, free,
      fun _ _ _ => by simp, fun arguments classified => head?_ofTexts classified unseparated⟩
    rw [foldl_act, foldl_act]
    rfl

theorem outputOption_eq (name : Text) :
    outputOption name = "--output".toList ++ '=' :: name := rfl

theorem ofSpelling?_outputOption (name : Text) :
    Switch.ofSpelling? (outputOption name) = none := by
  have unassigned : ∀ s ∈ Switch.all, ∀ spelling ∈ s.spellings, '=' ∉ spelling := by decide
  rw [Switch.ofSpelling?, List.find?_eq_none]
  intro s known spelled
  refine unassigned s known (outputOption name) (by simpa using spelled) ?_
  rw [outputOption_eq]
  exact List.mem_append_right _ List.mem_cons_self

theorem ofText_outputOption (name : Text) :
    ofText (outputOption name) = .ok (.option .output (.assigned name)) := by
  have split : splitAssigned? (outputOption name) = some ("--output".toList, name) := rfl
  have spelled : spelled? (outputOption name) = some (.option .output (.assigned name)) := by
    rw [spelled?, ofSpelling?_outputOption, split]
    rfl
  have dashes : outputOption name = '-' :: '-' :: ("output".toList ++ '=' :: name) := rfl
  rw [dashes] at spelled ⊢
  rw [ofText]
  simp only [spelled]

theorem consume_output (kept : name ≠ ['-', '-']) (p : Progress) (rest : List Argument) :
    consume p (.option .output (.assigned name) :: rest) =
      consume { p with output := some name } rest := by
  rw [consume.eq_10 p .output (.assigned name) rest [] .output name rfl]
  show (p.assign .output name >>= (consume · rest)) = _
  rw [Progress.assign, if_neg kept]
  rfl

/-- Reading does not look at the output before its end, where no argument brings one. -/
theorem kept_output (path : Option Text) :
    Kept (fun p q => q = { p with output := path }) (· ≠ .output) where
  free := by rintro p q rfl; rfl
  condition _ := by rintro rfl _; rfl
  stray _ := by rintro rfl; rfl
  plain := by rintro p q rfl; rfl
  verbose := by rintro p q rfl; rfl
  format _ _ := by rintro rfl; rfl
  output _ other := absurd rfl other

theorem finish_output (path : Option Text) (p q : Progress) (h : q = { p with output := path }) :
    finish q = (finish p).map fun settings => { settings with output := path } := by
  subst h
  refine finish_eq_map rfl .rfl fun w w' taken taken' => ?_
  obtain rfl := Option.some.inj (taken.symm.trans taken')
  rfl

theorem Settings.read_inserted (h : Inserts (outputOption name) argv argv')
    (kept : name ≠ ['-', '-']) :
    read argv' = (read argv).map (fun settings => { settings with output := some name }) ∧
    ∀ settings, read argv = .ok settings → settings.output = some ['-'] := by
  obtain ⟨ts, p, follows, rest, rfl, rfl, ⟨first, classified, goesOn⟩, printed, free, option,
      after⟩ :=
    h.exists_leadsTo
  have texts := classified rest
  have texts' : ofTexts (ts ++ outputOption name :: rest) =
      (ofTexts rest).map ((first ++ [.option .output (.assigned name)]) ++ ·) := by
    have other : outputOption name ≠ ['-', '-'] := by
      rw [outputOption_eq]
      exact fun same => absurd (List.cons.inj (List.cons.inj same).2).2 (List.cons_ne_nil _ _)
    rw [classified, ofTexts_cons (ofText_outputOption name) other]
    cases ofTexts rest <;> simp [Except.map]
  have among (arguments : List Argument) (known : ofTexts rest = .ok arguments) :
      ∀ a ∈ arguments, ∀ s ∈ a.valued?, s ≠ .output := by
    rintro a member s brought rfl
    exact free arguments known a member brought
  constructor
  · refine read_map texts texts' (fun arguments known => ?_) (finish_output (some name))
    rw [goesOn _ (after arguments known), List.append_assoc, List.singleton_append,
      goesOn _ (option _ _ _), consume_output kept]
    exact (kept_output (some name)).run arguments (among arguments known) rfl
  · -- The dash that reading starts with could as well be put in at the end.
    intro settings outcome
    have same : read (ts ++ rest) =
        (read (ts ++ rest)).map fun settings => { settings with output := some ['-'] } := by
      refine read_map texts texts (fun arguments known => ?_) (finish_output (some ['-']))
      rw [goesOn _ (after arguments known)]
      exact (kept_output (some ['-'])).run arguments (among arguments known) (by rw [← printed])
    rw [outcome] at same
    exact congrArg Settings.output (Except.ok.inj same)

/-- A run as another one ends, with what that one prints in a file where it succeeds, and nothing
printed or written where it does not. -/
structure MovesInto (name : Text) (printing writing : Outcome) : Prop where
  status : writing.status = printing.status
  unwritten : printing.file = none
  moved : printing.status = .ok 0 →
    writing.stdout = [] ∧ writing.file = some (name, printing.stdout)
  silent : printing.status ≠ .ok 0 →
    printing.stdout = [] ∧ writing.stdout = [] ∧ writing.file = none

theorem answer_movesInto (printed : settings.output = some ['-']) (placed : place name = .ok name)
    (other : name ≠ ['-']) (t : Text) : MovesInto name (answer place settings t)
      (answer place { settings with output := some name } t) := by
  unfold answer
  cases Condition.read t with
  | ok c =>
    have same : render { settings with output := some name } c = render settings c := rfl
    simp only [deliver, printed, if_pos, if_neg other, placed, same]
    exact ⟨rfl, rfl, fun _ => ⟨rfl, rfl⟩, fun fails => absurd rfl fails⟩
  | error e => cases e with
    | noShape segment => exact ⟨rfl, rfl, by simp, fun _ => ⟨rfl, rfl, rfl⟩⟩
    | _ => exact ⟨rfl, rfl, by simp, fun _ => ⟨rfl, rfl, rfl⟩⟩

theorem execute_movesInto (printed : settings.output = some ['-']) (placed : place name = .ok name)
    (other : name ≠ ['-']) (stdin : Text) : MovesInto name (execute place settings stdin)
      (execute place { settings with output := some name } stdin) := by
  have text : conditionText { settings with output := some name } stdin =
      conditionText settings stdin := rfl
  unfold execute
  rw [text]
  split
  · exact ⟨rfl, rfl, by simp, fun _ => ⟨rfl, rfl, rfl⟩⟩
  · exact answer_movesInto printed placed other _

/-- Naming a file for the output, between any arguments that name none, moves into it all that the
run would print, and leaves everything as it is where the run fails. Arguments that ask for help or
are at fault do so with the option too. -/
theorem run_movesInto (file : IsFileName name) (other : name ≠ ['-'] ∧ name ≠ ['-', '-'])
    (inserted : Inserts (outputOption name) argv argv') (stdin : Text) :
    (∀ settings, read argv = .ok settings →
      MovesInto name (run inEmptyDirectory argv stdin) (run inEmptyDirectory argv' stdin)) ∧
    (∀ e, read argv = .error (.usage e) →
      MovesInto name (run inEmptyDirectory argv stdin) (run inEmptyDirectory argv' stdin)) ∧
    (read argv = .error .help →
      run inEmptyDirectory argv' stdin = run inEmptyDirectory argv stdin) := by
  obtain ⟨read', printed⟩ := Settings.read_inserted inserted other.2
  refine ⟨fun settings outcome => ?_, fun e outcome => ?_, fun outcome => ?_⟩
  · rw [run, run, read', outcome]
    exact execute_movesInto (printed settings outcome) file.inEmptyDirectory_eq other.1 stdin
  · rw [run, run, read', outcome]
    exact ⟨rfl, rfl, by simp, fun _ => ⟨rfl, rfl, rfl⟩⟩
  · rw [run, run, read', outcome]
    rfl

/-- A name with a space and an equals sign, given in front of a condition that looks like an
option. -/
theorem run_movesInto_before_separator :
    IsFileName "a =b".toList ∧
    Inserts (outputOption "a =b".toList)
      ["--pl".toList, "-vfaddresses".toList, "--".toList, "-5=0xH1".toList]
      ["--pl".toList, "-vfaddresses".toList, "--output=a =b".toList, "--".toList,
        "-5=0xH1".toList] ∧
    (run inEmptyDirectory ["--pl".toList, "-vfaddresses".toList, "--output=a =b".toList,
      "--".toList, "-5=0xH1".toList] []).stdout = [] ∧
    (run inEmptyDirectory ["--pl".toList, "-vfaddresses".toList, "--output=a =b".toList,
      "--".toList, "-5=0xH1".toList] []).file = some ("a =b".toList, "0x000001\n".toList) := by
  have file : IsFileName "a =b".toList :=
    ⟨by decide, by decide, by decide, by decide, by decide +kernel⟩
  have row : Row ([.plain] ++ (List.replicate 1 .verbose ++ [.format .addresses] ++ []))
      (["--pl".toList] ++ (["-vfaddresses".toList] ++ [])) :=
    .cons (.plain ⟨by decide, by decide⟩) (.cons (.joined 1 .addresses) .nil)
  have free : LeavesOutput ["--".toList, "-5=0xH1".toList] := by
    intro arguments classified
    obtain rfl := Except.ok.inj classified
    decide
  have inserted : Inserts (outputOption "a =b".toList)
      ["--pl".toList, "-vfaddresses".toList, "--".toList, "-5=0xH1".toList]
      ["--pl".toList, "-vfaddresses".toList, "--output=a =b".toList, "--".toList,
        "-5=0xH1".toList] := .before row free
  have taken : read ["--pl".toList, "-vfaddresses".toList, "--".toList, "-5=0xH1".toList] =
      .ok ⟨"-5=0xH1".toList, .addresses, .plain, some ['-'], true⟩ := by decide +kernel
  have ended : (run inEmptyDirectory ["--pl".toList, "-vfaddresses".toList, "--".toList,
      "-5=0xH1".toList] []).status = .ok 0 := by decide +kernel
  have printed : (run inEmptyDirectory ["--pl".toList, "-vfaddresses".toList, "--".toList,
      "-5=0xH1".toList] []).stdout = "0x000001\n".toList := by decide +kernel
  obtain ⟨silent, written⟩ :=
    ((run_movesInto file (by decide) inserted []).1 _ taken).moved ended
  rw [printed] at written
  exact ⟨file, inserted, silent, written⟩

/-- A name that is spelled like the separator is lost, and a text that is spelled like the help
option asks for help. -/
theorem not_all_output_moved :
    (¬ ∀ name t stdin : Text, IsFileName name → name ≠ ['-'] → t.head? ≠ some '-' →
      MovesInto name (run inEmptyDirectory [t] stdin)
        (run inEmptyDirectory [t, outputOption name] stdin)) ∧
    ¬ ∀ name t stdin : Text, IsFileName name → name ≠ ['-'] → name ≠ ['-', '-'] →
      MovesInto name (run inEmptyDirectory [t] stdin)
        (run inEmptyDirectory [t, outputOption name] stdin) := by
  refine ⟨fun moves => ?_, fun moves => ?_⟩
  · have file : IsFileName "--".toList :=
      ⟨by decide, by decide, by decide, by decide, by decide +kernel⟩
    have ended := (moves "--".toList ['5'] [] file (by decide) (by decide)).status
    exact absurd ended (by decide +kernel)
  · have file : IsFileName "out".toList :=
      ⟨by decide, by decide, by decide, by decide, by decide +kernel⟩
    have silent := (moves "out".toList "-h".toList [] file (by decide) (by decide)).moved rfl
    exact absurd silent.1 (by decide +kernel)

end MemLogic.CommandLine
