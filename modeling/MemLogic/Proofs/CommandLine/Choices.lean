import MemLogic.CommandLine.Settings
import MemLogic.Proofs.Outcome
import Mathlib.Data.List.Infix
import Mathlib.Data.List.TakeWhile

/-! Choices: the ways to write the options for the format, the style and the log. In any row around
a condition they are read as written. -/

namespace MemLogic.CommandLine
open Argument Settings

/-- What an option asks for that leaves the output alone. -/
inductive Choice where
  | format (f : Format)
  | plain
  | verbose
  deriving DecidableEq, Repr

namespace Choice

def switch : Choice → Switch
  | format _ => .format
  | plain => .plain
  | verbose => .verbose

def format? : Choice → Option Format
  | format f => some f
  | plain | verbose => none

def act (p : Progress) : Choice → Progress
  | format f => { p with format := f }
  | plain => { p with style := .plain }
  | verbose => { p with verbose := true }

/-- The last format counts; the others hold once they are made. -/
def settings (condition : Text) (cs : List Choice) : Settings :=
  ⟨condition, (cs.filterMap format?).getLast?.getD .text,
    if .plain ∈ cs then .plain else .markdown, some ['-'], .verbose ∈ cs⟩

/-- A long option, cut anywhere behind its first letter. -/
def Names (full name : Text) : Prop :=
  name <+: full ∧ 3 ≤ name.length

/-- Choices as one argument or two write them: by a long option, a value behind an equals sign or
in the next argument, or by short options in a row, of which only the last takes a value. -/
inductive Spells : List Choice → List Text → Prop where
  | plain {name : Text} (long : Names "--plain".toList name) : Spells [plain] [name]
  | verbose {name : Text} (long : Names "--verbose".toList name) : Spells [verbose] [name]
  | assigned {name : Text} (long : Names "--format".toList name) (f : Format) :
    Spells [format f] [name ++ '=' :: f.word]
  | apart {name : Text} (long : Names "--format".toList name) (f : Format) :
    Spells [format f] [name, f.word]
  | letters (n : Nat) :
    Spells (List.replicate (n + 1) verbose) ['-' :: List.replicate (n + 1) 'v']
  | joined (n : Nat) (f : Format) : Spells (List.replicate n verbose ++ [format f])
      ['-' :: (List.replicate n 'v' ++ 'f' :: f.word)]
  | lettersApart (n : Nat) (f : Format) : Spells (List.replicate n verbose ++ [format f])
      ['-' :: (List.replicate n 'v' ++ ['f']), f.word]
  | equals (f : Format) : Spells [format f] ["-f=".toList ++ f.word]

/-- Any number of choices, one behind the other. -/
inductive Row : List Choice → List Text → Prop where
  | nil : Row [] []
  | cons {cs ds : List Choice} {ts us : List Text} (first : Spells cs ts) (rest : Row ds us) :
    Row (cs ++ ds) (ts ++ us)

/-- Read as these choices, wherever the texts stand. No separator is among them, as the condition
would swallow one next to it. -/
def Acts (cs : List Choice) (ts : List Text) : Prop :=
  ∃ arguments : List Argument, .separator ∉ arguments ∧
    (∀ rest, ofTexts (ts ++ rest) = (ofTexts rest).map (arguments ++ ·)) ∧
      ∀ p rest, consume p (arguments ++ rest) = consume (cs.foldl act p) rest

variable {cs ds : List Choice} {t name : Text} {ts us : List Text} {a : Argument} {s : Switch}
  {attachment : Attachment} {p : Progress}

theorem Acts.nil : Acts [] [] := by
  refine ⟨[], List.not_mem_nil, fun rest => ?_, fun _ _ => rfl⟩
  rw [List.nil_append]
  cases ofTexts rest <;> rfl

theorem Acts.append (h : Acts cs ts) (h' : Acts ds us) : Acts (cs ++ ds) (ts ++ us) := by
  obtain ⟨arguments, separated, classified, acts⟩ := h
  obtain ⟨arguments', separated', classified', acts'⟩ := h'
  refine ⟨arguments ++ arguments', by simp [separated, separated'],
    fun rest => ?_, fun p rest => ?_⟩
  · rw [List.append_assoc, classified, classified']
    cases ofTexts rest <;> simp [Except.map]
  · rw [List.append_assoc, acts, acts', List.foldl_append]

theorem ofTexts_cons (h : ofText t = .ok a) (other : t ≠ ['-', '-']) (rest : List Text) :
    ofTexts (t :: rest) = (ofTexts rest).map ([a] ++ ·) := by
  rw [ofTexts, if_neg other, h]
  cases ofTexts rest <;> rfl

theorem foldlM_flag (h : ∀ c ∈ cs, c.format? = none) (p : Progress) :
    (cs.map switch).foldlM Progress.flag p = .ok (cs.foldl act p) := by
  induction cs generalizing p with
  | nil => rfl
  | cons c cs ih =>
    obtain ⟨first, rest⟩ := List.forall_mem_cons.mp h
    have step : p.flag c.switch = .ok (act p c) := by
      cases c with
      | format f => exact absurd first (by simp [format?])
      | plain => rfl
      | verbose => rfl
    rw [List.map_cons, List.foldlM_cons, step]
    exact ih rest (act p c)

theorem assign_word (p : Progress) (f : Format) :
    p.assign .format f.word = .ok (act p (.format f)) := by
  cases f <;> rfl

/-- An argument whose options take no value. -/
theorem Acts.closed (text : ofText t = .ok (.option s attachment)) (other : t ≠ ['-', '-'])
    (bundle : Bundle.ofOption s attachment = .ok ⟨cs.map switch, .closed⟩)
    (flags : ∀ c ∈ cs, c.format? = none) : Acts cs [t] := by
  refine ⟨[.option s attachment], by simp, ofTexts_cons text other, fun p rest => ?_⟩
  rw [List.singleton_append, consume.eq_def]
  simp only [bundle, foldlM_flag flags]
  rfl

/-- An argument whose last option has its value with it. -/
theorem Acts.valued (text : ofText t = .ok (.option s attachment)) (other : t ≠ ['-', '-'])
    {f : Format}
    (bundle : Bundle.ofOption s attachment = .ok ⟨cs.map switch, .value .format f.word⟩)
    (flags : ∀ c ∈ cs, c.format? = none) : Acts (cs ++ [.format f]) [t] := by
  refine ⟨[.option s attachment], by simp, ofTexts_cons text other, fun p rest => ?_⟩
  have assigned := assign_word (cs.foldl act p) f
  rw [List.singleton_append, consume.eq_def, List.foldl_append]
  simp only [bundle, foldlM_flag flags]
  show (cs.foldl act p).assign .format f.word >>= (consume · rest) = _
  rw [assigned]
  rfl

/-- An argument whose last option has its value in the next argument. -/
theorem Acts.wanting (text : ofText t = .ok (.option s attachment)) (other : t ≠ ['-', '-'])
    {f : Format} (bundle : Bundle.ofOption s attachment = .ok ⟨cs.map switch, .wanting .format⟩)
    (flags : ∀ c ∈ cs, c.format? = none) : Acts (cs ++ [.format f]) [t, f.word] := by
  have word : ofText f.word = .ok (.word f.word) := by cases f <;> rfl
  have apart : f.word ≠ ['-', '-'] := by cases f <;> decide
  refine ⟨[.option s attachment, .word f.word], by simp, fun rest => ?_, fun p rest => ?_⟩
  · rw [List.cons_append, ofTexts_cons text other, List.singleton_append, ofTexts_cons word apart]
    cases ofTexts rest <;> rfl
  · have assigned := assign_word (cs.foldl act p) f
    rw [List.cons_append, List.singleton_append, consume.eq_def, List.foldl_append]
    simp only [bundle, foldlM_flag flags]
    show (cs.foldl act p).assign .format f.word >>= (consume · rest) = _
    rw [assigned]
    rfl

theorem ofText_letters {x : Text} (nonempty : x ≠ []) (unassigned : '=' ∉ x) :
    ofText ('-' :: 'v' :: x) = .ok (.option .verbose (.joined x)) := by
  have unknown : Switch.ofSpelling? ('-' :: 'v' :: x) = none := by
    simp [Switch.ofSpelling?, Switch.all, Switch.spellings, nonempty]
  have whole : splitAssigned? ('-' :: 'v' :: x) = none := by
    have rest : ('-' :: 'v' :: x).dropWhile (· ≠ '=') = [] := by
      rw [List.dropWhile_eq_nil_iff]
      intro c member
      have other : c ≠ '=' := by
        rintro rfl
        exact unassigned (by simpa using member)
      simpa using other
    rw [splitAssigned?, rest]
  have unspelled : spelled? ('-' :: 'v' :: x) = none := by
    rw [spelled?, unknown, whole]
    rfl
  have alone : candidates ('-' :: 'v' :: x) = [(['-', 'v'], .option .verbose (.joined x))] := rfl
  rw [ofText]
  simp only [unspelled, alone]

section Bundles
variable {c : Char} {r : Text} {next : Switch} {b : Bundle}

theorem joined_verbose_cons (letter : Switch.ofSpelling? ['-', c] = some next) :
    Bundle.joined .verbose (c :: r) =
      (if r = [] then .ok (Bundle.alone next) else Bundle.joined next r).map
        fun b => ⟨.verbose :: b.flags, b.ending⟩ := by
  rw [Bundle.joined, if_neg (by decide)]
  simp only [letter]
  split
  · rfl
  · cases Bundle.joined next r <;> rfl

/-- Letters in a row are short options of their own, up to what ends the row. -/
theorem joined_letters (letter : Switch.ofSpelling? ['-', c] = some next)
    (last : (if r = [] then .ok (Bundle.alone next) else Bundle.joined next r) = .ok b) (n : Nat) :
    Bundle.joined .verbose (List.replicate n 'v' ++ c :: r) =
      .ok ⟨(List.replicate (n + 1) verbose).map switch ++ b.flags, b.ending⟩ := by
  induction n with
  | zero =>
    rw [List.replicate_zero, List.nil_append, joined_verbose_cons letter, last]
    rfl
  | succ n ih =>
    have again : Switch.ofSpelling? ['-', 'v'] = some .verbose := by decide
    have more : List.replicate n 'v' ++ c :: r ≠ [] := by simp
    rw [List.replicate_succ, List.cons_append, joined_verbose_cons again, if_neg more, ih]
    rfl

theorem ofText_row (letter : Switch.ofSpelling? ['-', c] = some next) (unassigned : '=' ∉ c :: r)
    (last : (if r = [] then .ok (Bundle.alone next) else Bundle.joined next r) = .ok b)
    (first : ∃ attachment, ofText ('-' :: c :: r) = .ok (.option next attachment) ∧
      Bundle.ofOption next attachment = .ok b) (n : Nat) :
    ∃ s attachment, ofText ('-' :: (List.replicate n 'v' ++ c :: r)) = .ok (.option s attachment) ∧
      Bundle.ofOption s attachment =
        .ok ⟨(List.replicate n verbose).map switch ++ b.flags, b.ending⟩ := by
  cases n with
  | zero =>
    -- The one letter may be spelled in full, and is then no bundle.
    obtain ⟨attachment, text, bundle⟩ := first
    exact ⟨next, attachment, text, bundle⟩
  | succ n =>
    have letters : '=' ∉ List.replicate n 'v' ++ c :: r := by
      rw [List.mem_append, List.mem_replicate]
      rintro (⟨_, same⟩ | member)
      · exact absurd same (by decide)
      · exact unassigned member
    exact ⟨.verbose, _, ofText_letters (by simp) letters, joined_letters letter last n⟩

end Bundles

/-- The names of a long option. -/
def names (full : Text) : List Text :=
  full.inits.filter (3 ≤ ·.length)

theorem Names.mem_names {full : Text} (h : Names full name) : name ∈ names full :=
  List.mem_filter.mpr ⟨(List.mem_inits _ _).mpr h.1, by simpa using h.2⟩

-- A long option has finitely many names, so that each is looked at.

theorem Names.plain_acts (h : Names "--plain".toList name) : Acts [plain] [name] := by
  have known : ∀ name ∈ names "--plain".toList,
      ofText name = .ok (.option .plain .absent) ∧ name ≠ ['-', '-'] := by decide +kernel
  obtain ⟨text, other⟩ := known name h.mem_names
  exact .closed text other rfl (by decide)

theorem Names.verbose_acts (h : Names "--verbose".toList name) : Acts [verbose] [name] := by
  have known : ∀ name ∈ names "--verbose".toList,
      ofText name = .ok (.option .verbose .absent) ∧ name ≠ ['-', '-'] := by decide +kernel
  obtain ⟨text, other⟩ := known name h.mem_names
  exact .closed text other rfl (by decide)

theorem Names.assigned_acts (h : Names "--format".toList name) (f : Format) :
    Acts [format f] [name ++ '=' :: f.word] := by
  have known : ∀ name ∈ names "--format".toList, ∀ f ∈ Format.all,
      ofText (name ++ '=' :: f.word) = .ok (.option .format (.assigned f.word)) ∧
        name ++ '=' :: f.word ≠ ['-', '-'] := by decide +kernel
  obtain ⟨text, other⟩ := known name h.mem_names f f.mem_all
  exact @Acts.valued [] _ _ _ text other f rfl (by simp)

theorem Names.apart_acts (h : Names "--format".toList name) (f : Format) :
    Acts [format f] [name, f.word] := by
  have known : ∀ name ∈ names "--format".toList,
      ofText name = .ok (.option .format .absent) ∧ name ≠ ['-', '-'] := by decide +kernel
  obtain ⟨text, other⟩ := known name h.mem_names
  exact @Acts.wanting [] _ _ _ text other f rfl (by simp)

theorem letters_ne_separator {c : Char} (other : c ≠ '-') (n : Nat) (r : Text) :
    '-' :: (List.replicate n 'v' ++ c :: r) ≠ ['-', '-'] := by
  cases n with
  | zero => simp [other]
  | succ n => simp [List.replicate_succ]

theorem format?_verbose (n : Nat) : ∀ c ∈ List.replicate n verbose, c.format? = none := by
  intro c member
  rw [List.eq_of_mem_replicate member]
  rfl

theorem letters_acts (n : Nat) :
    Acts (List.replicate (n + 1) verbose) ['-' :: List.replicate (n + 1) 'v'] := by
  obtain ⟨s, attachment, text, bundle⟩ := @ofText_row 'v' [] .verbose ⟨[.verbose], .closed⟩
    (by decide) (by decide) rfl ⟨.absent, by decide +kernel, rfl⟩ n
  rw [List.replicate_succ' (a := 'v')]
  refine .closed text (letters_ne_separator (by decide) n []) ?_ (format?_verbose _)
  rw [bundle, List.replicate_succ', List.map_append]
  rfl

theorem joined_word (f : Format) :
    Bundle.joined .format f.word = .ok ⟨[], .value .format f.word⟩ := by
  cases f <;> rfl

theorem joined_acts (n : Nat) (f : Format) : Acts (List.replicate n verbose ++ [format f])
    ['-' :: (List.replicate n 'v' ++ 'f' :: f.word)] := by
  have word : f.word ≠ [] ∧ '=' ∉ 'f' :: f.word ∧
      ofText ('-' :: 'f' :: f.word) = .ok (.option .format (.joined f.word)) := by
    cases f <;> decide +kernel
  obtain ⟨nonempty, unassigned, first⟩ := word
  obtain ⟨s, attachment, text, bundle⟩ := @ofText_row 'f' f.word .format
    ⟨[], .value .format f.word⟩ (by decide) unassigned
    (by rw [if_neg nonempty, joined_word]) ⟨_, first, joined_word f⟩ n
  rw [List.append_nil] at bundle
  exact .valued text (letters_ne_separator (by decide) n f.word) bundle (format?_verbose n)

theorem lettersApart_acts (n : Nat) (f : Format) : Acts (List.replicate n verbose ++ [format f])
    ['-' :: (List.replicate n 'v' ++ ['f']), f.word] := by
  obtain ⟨s, attachment, text, bundle⟩ := @ofText_row 'f' [] .format ⟨[], .wanting .format⟩
    (by decide) (by decide) rfl ⟨.absent, by decide +kernel, rfl⟩ n
  rw [List.append_nil] at bundle
  exact .wanting text (letters_ne_separator (by decide) n []) bundle (format?_verbose n)

theorem equals_acts (f : Format) : Acts [format f] ["-f=".toList ++ f.word] := by
  have text : ofText ("-f=".toList ++ f.word) = .ok (.option .format (.joined f.word)) ∧
      "-f=".toList ++ f.word ≠ ['-', '-'] := by cases f <;> decide +kernel
  exact @Acts.valued [] _ _ _ text.1 text.2 f (joined_word f) (by simp)

/-- Each way of writing choices is read as those choices. -/
theorem Spells.acts (h : Spells cs ts) : Acts cs ts := by
  cases h with
  | plain long => exact long.plain_acts
  | verbose long => exact long.verbose_acts
  | assigned long f => exact long.assigned_acts f
  | apart long f => exact long.apart_acts f
  | letters n => exact letters_acts n
  | joined n f => exact joined_acts n f
  | lettersApart n f => exact lettersApart_acts n f
  | equals f => exact equals_acts f

theorem Row.acts (h : Row cs ts) : Acts cs ts := by
  induction h with
  | nil => exact .nil
  | cons first _ ih => exact first.acts.append ih

theorem foldl_act (cs : List Choice) (p : Progress) : cs.foldl act p =
    ⟨p.condition, (cs.filterMap format?).getLast?.getD p.format,
      if .plain ∈ cs then .plain else p.style, p.output, p.verbose || decide (.verbose ∈ cs),
      p.strays⟩ := by
  induction cs generalizing p with
  | nil => simp
  | cons c cs ih =>
    rw [List.foldl_cons, ih]
    cases c <;> simp [act, format?, List.getLast?_cons]

end Choice

namespace Settings
open Choice

variable {cs ds : List Choice} {ts us : List Text} {w : Text} {p : Progress}

/-- The first word is the condition, and nothing else is taken with it where no separator
follows. -/
theorem consume_word (free : p.condition = none) {rest : List Argument}
    (unseparated : rest.head? ≠ some .separator) :
    consume p (.word w :: rest) = consume { p with condition := some w } rest :=
  consume.eq_3 p w rest free fun tail same => unseparated (by rw [same]; rfl)

theorem ofText_word (word : w = ['-'] ∨ w.head? ≠ some '-') :
    ofText w = .ok (.word w) ∧ w ≠ ['-', '-'] := by
  rcases word with rfl | word
  · exact ⟨rfl, by decide⟩
  · cases w with
    | nil => exact ⟨rfl, by decide⟩
    | cons c r =>
      have other : c ≠ '-' := by simpa using word
      refine ⟨?_, by simp [other]⟩
      unfold ofText
      split
      · rename_i same
        exact absurd (List.cons.inj same).1 other
      · rfl

/-- Rows of choices around a condition are read as those choices, and the condition as it is. -/
theorem read_row (before : Row cs ts) (after : Row ds us) (word : w = ['-'] ∨ w.head? ≠ some '-') :
    read (ts ++ w :: us) = .ok (settings w (cs ++ ds)) := by
  obtain ⟨first, _, classified, acts⟩ := before.acts
  obtain ⟨last, separated, classified', acts'⟩ := after.acts
  obtain ⟨text, other⟩ := ofText_word word
  -- All texts are classified before any argument acts.
  have arguments : ofTexts (ts ++ w :: us) = .ok (first ++ .word w :: last) := by
    have rest := classified' []
    rw [List.append_nil] at rest
    rw [classified, ofTexts_cons text other, rest]
    simp [ofTexts, Except.map]
  have consumed : consume .start (first ++ .word w :: last) =
      .ok { (cs ++ ds).foldl act .start with condition := some w } := by
    have start : (cs.foldl act .start).condition = none := by
      rw [foldl_act]
      rfl
    have rest := acts' { cs.foldl act .start with condition := some w } []
    rw [List.append_nil] at rest
    have unseparated : last.head? ≠ some .separator := fun next =>
      separated (List.mem_of_mem_head? next)
    rw [acts, consume_word start unseparated, rest, consume, List.foldl_append, foldl_act ds,
      foldl_act ds]
  rw [read, arguments]
  show consume .start (first ++ .word w :: last) >>= (fun p => liftUsage (finish p)) = _
  rw [consumed, foldl_act]
  simp [Progress.start, finish, liftUsage, settings, bind, Except.bind]

end Settings
end MemLogic.CommandLine
