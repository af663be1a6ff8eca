import MemLogic.CommandLine.Run

/-! Arguments read side by side: a relation between two states of reading that each step keeps is
kept to the end. -/

namespace MemLogic.CommandLine
open Argument Settings

/-- Both fail for the same cause, or the results are related. -/
inductive Alike {ε α β : Type} (R : α → β → Prop) : Except ε α → Except ε β → Prop where
  | ok {a : α} {b : β} (related : R a b) : Alike R (.ok a) (.ok b)
  | error (e : ε) : Alike R (.error e) (.error e)

theorem Alike.bind {ε α β γ δ : Type} {R : α → β → Prop} {S : γ → δ → Prop} {x : Except ε α}
    {y : Except ε β} {f : α → Except ε γ} {g : β → Except ε δ} (h : Alike R x y)
    (step : ∀ a b, R a b → Alike S (f a) (g b)) : Alike S (x >>= f) (y >>= g) := by
  cases h with
  | ok related => exact step _ _ related
  | error e => exact .error e

/-- The option that an argument brings a value for, or ends wanting one. -/
def Argument.valued? : Argument → Option Switch
  | option s attachment =>
    match Bundle.ofOption s attachment with
    | .ok ⟨_, .value s _⟩ => some s
    | .ok ⟨_, .wanting s⟩ => some s
    | _ => none
  | _ => none

/-- A relation that each change of a state keeps, where only some options are given values. -/
structure Kept (R : Progress → Progress → Prop) (options : Switch → Prop) : Prop where
  free {p q : Progress} : R p q → (p.condition = none ↔ q.condition = none)
  condition {p q : Progress} (t : Text) : R p q → p.condition = none →
    R { p with condition := some t } { q with condition := some t }
  stray {p q : Progress} (t : Text) : R p q → R (p.stray t) (q.stray t)
  plain {p q : Progress} : R p q → R { p with style := .plain } { q with style := .plain }
  verbose {p q : Progress} : R p q → R { p with verbose := true } { q with verbose := true }
  format {p q : Progress} (f : Format) : options .format → R p q →
    R { p with format := f } { q with format := f }
  output {p q : Progress} (path : Option Text) : options .output → R p q →
    R { p with output := path } { q with output := path }

variable {R : Progress → Progress → Prop} {options : Switch → Prop} {p q : Progress}

/-- A condition that is found on one side is not missing on the other. -/
theorem exists_condition (free : p.condition = none ↔ q.condition = none) {w : Text}
    (taken : p.condition = some w) : ∃ w', q.condition = some w' := by
  rw [← Option.ne_none_iff_exists', ne_eq, ← free, taken]
  simp

theorem Kept.flag (kept : Kept R options) (s : Switch) (h : R p q) :
    Alike R (p.flag s) (q.flag s) := by
  cases s with
  | help => exact .error _
  | plain => exact .ok (kept.plain h)
  | verbose => exact .ok (kept.verbose h)
  | format => exact .ok h
  | output => exact .ok h

theorem Kept.assign (kept : Kept R options) {s : Switch} (among : options s) (t : Text)
    (h : R p q) : Alike R (p.assign s t) (q.assign s t) := by
  cases s with
  | format =>
    unfold Progress.assign
    dsimp only
    split
    · exact .ok (kept.format .text among h)
    · cases Format.ofWord? t with
      | some f => exact .ok (kept.format f among h)
      | none => exact .error _
  | output => exact .ok (kept.output _ among h)
  | help => exact .ok h
  | plain => exact .ok h
  | verbose => exact .ok h

theorem Kept.flags (kept : Kept R options) (flags : List Switch) (h : R p q) :
    Alike R (flags.foldlM Progress.flag p) (flags.foldlM Progress.flag q) := by
  induction flags generalizing p q with
  | nil => exact .ok h
  | cons s flags ih =>
    rw [List.foldlM_cons, List.foldlM_cons]
    exact (kept.flag s h).bind fun _ _ => ih

/-- What the steps keep is kept by a run of them, whatever the arguments. -/
theorem Kept.run (kept : Kept R options) (arguments : List Argument)
    (among : ∀ a ∈ arguments, ∀ s ∈ a.valued?, options s) (h : R p q) :
    Alike R (consume p arguments) (consume q arguments) := by
  induction p, arguments using consume.induct generalizing q with
  | case1 p =>
    rw [consume.eq_1, consume.eq_1]
    exact .ok h
  | case2 p t rest free ih =>
    rw [consume.eq_2 p t rest free, consume.eq_2 q t rest ((kept.free h).mp free)]
    exact ih (fun a member => among a (.tail _ (.tail _ member))) (kept.condition t h free)
  | case3 p t rest separated free ih =>
    rw [consume.eq_3 p t rest free separated,
      consume.eq_3 q t rest ((kept.free h).mp free) separated]
    exact ih (fun a member => among a (.tail _ member)) (kept.condition t h free)
  | case4 p t value rest taken ih =>
    obtain ⟨value', taken'⟩ := exists_condition (kept.free h) taken
    rw [consume.eq_4 p t rest value taken, consume.eq_4 q t rest value' taken']
    exact ih (fun a member => among a (.tail _ member)) (kept.stray t h)
  | case5 p t rest free ih =>
    rw [consume.eq_5 p t rest free, consume.eq_5 q t rest ((kept.free h).mp free)]
    exact ih (fun a member => among a (.tail _ (.tail _ member))) (kept.condition t h free)
  | case6 p rest lone ih =>
    rw [consume.eq_6 p rest lone,
      consume.eq_6 q rest fun t r free => lone t r ((kept.free h).mpr free)]
    exact ih (fun a member => among a (.tail _ member)) (kept.stray _ h)
  | case7 p t rest ih =>
    rw [consume.eq_7, consume.eq_7]
    exact ih (fun a member => among a (.tail _ member)) (kept.stray t h)
  | case8 p s attachment rest e bundle =>
    rw [consume.eq_8 p s attachment rest e bundle, consume.eq_8 q s attachment rest e bundle]
    exact .error _
  | case9 p s attachment flags rest bundle ih =>
    rw [consume.eq_9 p s attachment rest flags bundle,
      consume.eq_9 q s attachment rest flags bundle]
    exact (kept.flags flags h).bind fun p' q' h' =>
      ih p' (fun a member => among a (.tail _ member)) h'
  | case10 p s attachment flags s' t rest bundle ih =>
    have option : options s' := among _ List.mem_cons_self s' (by simp [valued?, bundle])
    rw [consume.eq_10 p s attachment rest flags s' t bundle,
      consume.eq_10 q s attachment rest flags s' t bundle]
    exact (kept.flags flags h).bind fun _ _ h' => (kept.assign option t h').bind fun p'' q'' h'' =>
      ih p'' (fun a member => among a (.tail _ member)) h''
  | case11 p s attachment flags s' t rest bundle ih =>
    have option : options s' := among _ List.mem_cons_self s' (by simp [valued?, bundle])
    rw [consume.eq_11 p s attachment flags s' t rest bundle,
      consume.eq_11 q s attachment flags s' t rest bundle]
    exact (kept.flags flags h).bind fun _ _ h' => (kept.assign option t h').bind fun p'' q'' h'' =>
      ih p'' (fun a member => among a (.tail _ (.tail _ member))) h''
  | case12 p s attachment rest flags s' bundle wanting =>
    rw [consume.eq_12 p s attachment rest s' flags bundle wanting,
      consume.eq_12 q s attachment rest s' flags bundle wanting]
    exact .error _

/-- Nothing of a state but its settings counts in the end, save what found no place. -/
theorem finish_eq_map {f : Settings → Settings} (strays : q.strays = p.strays)
    (free : p.condition = none ↔ q.condition = none)
    (image : ∀ w w', p.condition = some w → q.condition = some w' →
      ⟨w', q.format, q.style, q.output, q.verbose⟩ =
        f ⟨w, p.format, p.style, p.output, p.verbose⟩) : finish q = (finish p).map f := by
  unfold finish
  cases taken : p.condition with
  | none =>
    rw [free.mp taken]
    rfl
  | some w =>
    obtain ⟨w', taken'⟩ := exists_condition free taken
    rw [taken', strays]
    dsimp only
    split
    · rw [image w w' taken taken']
      rfl
    · rfl

/-- Where the last step takes related states to settings and their image, reading does. -/
theorem Alike.map_finish {x y : Except Stop Progress} {f : Settings → Settings} (h : Alike R x y)
    (last : ∀ p q, R p q → finish q = (finish p).map f) :
    (y >>= fun q => liftUsage (finish q)) = (x >>= fun p => liftUsage (finish p)).map f := by
  cases h with
  | error e => rfl
  | @ok p q related =>
    show liftUsage (finish q) = (liftUsage (finish p)).map f
    rw [last p q related]
    cases finish p <;> rfl

/-- Two lists of texts that end alike are classified, or found ambiguous, alike. -/
theorem Settings.read_map {argv argv' rest : List Text} {first first' : List Argument}
    {f : Settings → Settings} (texts : ofTexts argv = (ofTexts rest).map (first ++ ·))
    (texts' : ofTexts argv' = (ofTexts rest).map (first' ++ ·))
    (alike : ∀ arguments, ofTexts rest = .ok arguments →
      Alike R (consume .start (first ++ arguments)) (consume .start (first' ++ arguments)))
    (last : ∀ p q, R p q → finish q = (finish p).map f) : read argv' = (read argv).map f := by
  rw [read, read, texts, texts']
  cases classified : ofTexts rest with
  | error e => rfl
  | ok arguments => exact (alike arguments classified).map_finish last

end MemLogic.CommandLine
