import MemLogic.Proofs.CommandLine.Choices
import MemLogic.Proofs.CommandLine.SideBySide

/-! Channels: a run is given its text in the first argument or on standard input, and cannot tell
which. Blanks at the ends of the text are lost on either way. -/

namespace MemLogic

namespace Text
variable {before after : Text}

theorem trimEnd_append_blanks (blank : ∀ c ∈ after, isBlank c) (t : Text) :
    trimEnd (t ++ after) = trimEnd t := by
  rw [trimEnd, List.reverse_append, List.dropWhile_append_of_pos (by simpa using blank), trimEnd]

/-- Blanks around a text are trimmed together with its own. -/
theorem trim_blanks (blank : ∀ c ∈ before ++ after, isBlank c) (t : Text) :
    trim (before ++ t ++ after) = trim t := by
  have first : ∀ c ∈ before, isBlank c := fun c member => blank c (List.mem_append_left _ member)
  have last : ∀ c ∈ after, isBlank c := fun c member => blank c (List.mem_append_right _ member)
  rw [trim, List.append_assoc, List.dropWhile_append_of_pos first, List.dropWhile_append, trim]
  split
  · rename_i empty
    have whole : after.dropWhile isBlank = [] := by simpa using last
    rw [whole, List.isEmpty_iff.mp empty]
  · exact trimEnd_append_blanks last _

/-- A blank is no dash. -/
theorem head?_blanks (blank : ∀ c ∈ before ++ after, isBlank c) {t : Text}
    (other : t.head? ≠ some '-') : (before ++ t ++ after).head? ≠ some '-' := by
  have apart : ∀ c ∈ before ++ after, c ≠ '-' := by
    rintro _ member rfl
    exact absurd (blank '-' member) (by decide)
  cases before with
  | cons c r => simpa using apart c (by simp)
  | nil => cases t with
    | cons c r => simpa using other
    | nil => exact fun first => apart '-' (List.mem_of_mem_head? first) rfl

end Text

namespace CommandLine
open Argument Settings Choice Text

variable {place : Text → Except Fault Text} {opts : List Text} {w w' stdin stdin' : Text}

/-- Once the condition is found, reading does not look at it again. -/
theorem kept_condition (w w' : Text) :
    Kept (fun p q => p.condition = some w ∧ q = { p with condition := some w' }) fun _ => True where
  free := by rintro p q ⟨taken, rfl⟩; simp [taken]
  condition _ := by
    rintro ⟨taken, rfl⟩ free
    exact absurd (free.symm.trans taken) (by simp)
  stray _ := by rintro ⟨taken, rfl⟩; exact ⟨taken, rfl⟩
  plain := by rintro p q ⟨taken, rfl⟩; exact ⟨taken, rfl⟩
  verbose := by rintro p q ⟨taken, rfl⟩; exact ⟨taken, rfl⟩
  format _ _ := by rintro ⟨taken, rfl⟩; exact ⟨taken, rfl⟩
  output _ _ := by rintro ⟨taken, rfl⟩; exact ⟨taken, rfl⟩

theorem finish_condition (w w' : Text) (p q : Progress)
    (h : p.condition = some w ∧ q = { p with condition := some w' }) :
    finish q = (finish p).map fun settings => { settings with condition := w' } := by
  have free := (kept_condition w w').free h
  obtain ⟨-, rfl⟩ := h
  refine finish_eq_map rfl free fun _ v _ taken => ?_
  obtain rfl := Option.some.inj taken
  rfl

/-- What follows the condition is read on in one way, whatever the condition. -/
theorem exists_consume_word (arguments : List Argument) : ∃ rest, ∀ w,
    consume .start (.word w :: arguments) =
      consume { Progress.start with condition := some w } rest := by
  by_cases separated : ∃ rest, arguments = .separator :: rest
  · obtain ⟨rest, rfl⟩ := separated
    exact ⟨rest, fun w => consume.eq_2 .start w rest rfl⟩
  · exact ⟨arguments, fun w => consume_word rfl fun first =>
      separated ⟨_, List.eq_cons_of_mem_head? first⟩⟩

theorem Settings.read_word (word : w = ['-'] ∨ w.head? ≠ some '-')
    (word' : w' = ['-'] ∨ w'.head? ≠ some '-') (opts : List Text) :
    read (w' :: opts) =
      (read (w :: opts)).map fun settings => { settings with condition := w' } := by
  obtain ⟨text, other⟩ := ofText_word word
  obtain ⟨text', other'⟩ := ofText_word word'
  refine read_map (ofTexts_cons text other opts) (ofTexts_cons text' other' opts)
    (fun arguments _ => ?_) (finish_condition w w')
  obtain ⟨rest, goesOn⟩ := exists_consume_word arguments
  rw [List.singleton_append, List.singleton_append, goesOn, goesOn]
  exact (kept_condition w w').run rest (fun _ _ _ _ => trivial) ⟨rfl, rfl⟩

theorem execute_conditionText {settings settings' : Settings}
    (text : conditionText settings stdin = conditionText settings' stdin')
    (others : settings' = { settings with condition := settings'.condition }) :
    execute place settings stdin = execute place settings' stdin' := by
  unfold execute
  rw [text]
  split
  · rfl
  · rw [others]
    rfl

/-- The text that comes in is all that a run has of its first argument and standard input. -/
theorem run_word (word : w = ['-'] ∨ w.head? ≠ some '-') (word' : w' = ['-'] ∨ w'.head? ≠ some '-')
    (text : trim (if w = ['-'] then stdin else w) = trim (if w' = ['-'] then stdin' else w'))
    (place : Text → Except Fault Text) (opts : List Text) :
    run place (w :: opts) stdin = run place (w' :: opts) stdin' := by
  have again := Settings.read_word word word opts
  unfold run
  rw [Settings.read_word word word']
  cases outcome : read (w :: opts) with
  | error stop => cases stop <;> rfl
  | ok settings =>
    have condition : settings.condition = w := by
      rw [outcome] at again
      exact congrArg Settings.condition (Except.ok.inj again)
    refine execute_conditionText ?_ rfl
    rw [conditionText, condition]
    exact text

/-- A text that does not begin with a dash gives one run, whether it is the first argument or stands
on standard input behind a dash, whatever arguments follow; and blanks put around it change
nothing. -/
theorem run_channels {t before after : Text} (word : t.head? ≠ some '-')
    (blank : ∀ c ∈ before ++ after, isBlank c) (place : Text → Except Fault Text)
    (opts : List Text) (stdin stdin' : Text) :
    run place (t :: opts) stdin = run place (['-'] :: opts) t ∧
    run place ((before ++ t ++ after) :: opts) stdin = run place (t :: opts) stdin' ∧
    run place (['-'] :: opts) (before ++ t ++ after) = run place (['-'] :: opts) t := by
  have wide := head?_blanks blank word
  have argument {u : Text} (other : u.head? ≠ some '-') (stdin : Text) :
      (if u = ['-'] then stdin else u) = u := by
    rw [if_neg]
    rintro rfl
    exact other rfl
  refine ⟨run_word (.inr word) (.inl rfl) ?_ place opts,
    run_word (.inr wide) (.inr word) ?_ place opts, run_word (.inl rfl) (.inl rfl) ?_ place opts⟩
  · rw [argument word, if_pos rfl]
  · rw [argument wide, argument word, trim_blanks blank]
  · rw [if_pos rfl, if_pos rfl, trim_blanks blank]

/-- A wide space and a line break around a text that is read from standard input. -/
theorem run_channels_wide_space :
    "0xH1=1".toList.head? ≠ some '-' ∧
    (∀ c ∈ ['\u3000'] ++ ['\n'], isBlank c) ∧
    run .ok ["-".toList, "-vx".toList, "--".toList, "more".toList] "\u30000xH1=1\n".toList =
      run .ok ["0xH1=1".toList, "-vx".toList, "--".toList, "more".toList] [] ∧
    (run .ok ["-".toList, "-vfaddresses".toList] "\u30000xH1=1\n".toList).stdout =
      "0x000001\n".toList := by
  have word : "0xH1=1".toList.head? ≠ some '-' := by decide
  have blank : ∀ c ∈ ['\u3000'] ++ ['\n'], isBlank c := by decide
  have input (opts : List Text) : run .ok (['-'] :: opts) "\u30000xH1=1\n".toList =
      run .ok ("0xH1=1".toList :: opts) [] := by
    obtain ⟨same, _, around⟩ := run_channels word blank .ok opts [] []
    exact around.trans same.symm
  have answered : (run .ok ["0xH1=1".toList, "-vfaddresses".toList] []).stdout =
      "0x000001\n".toList := by decide +kernel
  exact ⟨word, blank, input _, (congrArg Outcome.stdout (input _)).trans answered⟩

end CommandLine
end MemLogic
