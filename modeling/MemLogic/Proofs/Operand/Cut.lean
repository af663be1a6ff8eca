import MemLogic.Operand.Spelling
import MemLogic.Proofs.Text.Cut

/-! The parts of an operand that is neither in braces nor a constant: what stands in front of the
payload, and the payload, are cut off a text one after the other. -/

namespace MemLogic.Operand.Spelling
open Text

theorem sizeTokens_ne_nil : ∀ k ∈ sizeTokens, k ≠ [] := by decide

theorem sizeTokens_head : ∀ k ∈ sizeTokens, k.head? ∈ [some 'f', some '0', some 'h'] := by decide

theorem sizeTokens_length : ∀ k ∈ sizeTokens, k.head? = some 'f' → k.length = 2 := by decide

theorem sizeTokens_chars : ∀ k ∈ sizeTokens, ∀ c ∈ k, c.isAlphanum ∨ c = ' ' := by decide

/-- An encoding letter behind an `f` always makes a size token of both. -/
theorem splitSize_encoding {c e : Char} {t : Text} (hc : c.toLower = 'f')
    (he : encodingLetters.contains e.toLower) : splitSize (c :: e :: t) = ([c, e], t) := by
  have token : ['f', e.toLower] ∈ sizeTokens := by
    simp only [sizeTokens, List.mem_append, List.mem_map]
    exact .inl (.inl ⟨e.toLower, by simpa using he, rfl⟩)
  rcases splitToken_cases sizeTokens (c :: e :: t) with ⟨_, miss⟩ | ⟨x, y, split, taken, found⟩
  · exact absurd ⟨lower t, by simp [hc]⟩ (miss _ token)
  · cases x with
    | nil => exact absurd rfl (sizeTokens_ne_nil _ found)
    | cons d x =>
      obtain ⟨rfl, rest⟩ := List.cons.inj split
      have two := sizeTokens_length _ found (by simp [hc])
      obtain ⟨d, rfl⟩ : ∃ d, x = [d] := List.length_eq_one_iff.mp (by simpa using two)
      obtain ⟨rfl, rfl⟩ := List.cons.inj rest
      exact taken

/-- Takes off all that stands in front of a payload: a modifier and a size. -/
def splitFront (t : Text) : (Option Modifier × Text) × Text :=
  (((splitModifier t).1, (splitSize (splitModifier t).2).1), (splitSize (splitModifier t).2).2)

theorem splitPlain_eq (t : Text) : splitPlain t =
    (plain (splitFront t).1.1 (splitFront t).1.2 (splitPayload (splitFront t).2).1,
      (splitPayload (splitFront t).2).2) := rfl

/-- The class of letters that keep an `f` before them from being a modifier. -/
def isEncoding (c : Char) : Bool :=
  encodingLetters.contains c.toLower

theorem splitModifier_cons {c : Char} {r : Text} {m : Modifier} (hc : Modifier.ofChar? c = some m)
    (hr : m = .float → StopsAt isEncoding r) : splitModifier (c :: r) = (some m, r) := by
  cases m with
  | float =>
    cases r with
    | nil => simp [splitModifier, hc]
    | cons e r =>
      have free : encodingLetters.contains e.toLower = false :=
        (stopsAt_cons (p := isEncoding)).mp (hr rfl)
      simp only [splitModifier, hc, List.head?_cons, Option.any_some, free]
      rfl
  | _ => simp [splitModifier, hc]

/-- A modifier is one character, and an `f` is one only where no encoding letter follows. -/
theorem splitModifier_cases (t : Text) :
    splitModifier t = (none, t) ∨ ∃ c r m, t = c :: r ∧ splitModifier t = (some m, r) ∧
      Modifier.ofChar? c = some m ∧ (m = .float → StopsAt isEncoding r) := by
  cases t with
  | nil => exact .inl rfl
  | cons c r =>
    cases hc : Modifier.ofChar? c with
    | none => exact .inl (by simp [splitModifier, hc])
    | some m =>
      by_cases free : m = .float → StopsAt isEncoding r
      · exact .inr ⟨c, r, m, rfl, splitModifier_cons hc free, hc, free⟩
      · left
        push Not at free
        obtain ⟨rfl, he⟩ := free
        cases r with
        | nil => exact absurd (stopsAt_nil _) he
        | cons e r =>
          have follows : encodingLetters.contains e.toLower = true := by
            simpa [isEncoding] using he
          simp only [splitModifier, hc, List.head?_cons, Option.any_some, follows]
          rfl

theorem splitModifier_suffix (t : Text) : (splitModifier t).2 <:+ t := by
  rcases splitModifier_cases t with h | ⟨c, r, m, rfl, h, _⟩
  · simp only [h]
    exact List.suffix_refl _
  · simp only [h]
    exact List.suffix_cons _ _

theorem isCut_splitSize : IsCut splitSize :=
  isCut_splitToken sizeTokens

theorem ofChar?_float {c : Char} (h : Modifier.ofChar? c = some .float) : c.toLower = 'f' := by
  unfold Modifier.ofChar? at h
  split at h <;> simp_all

theorem splitFront_encoding {c e : Char} {t : Text} (hc : c.toLower = 'f')
    (he : isEncoding e) : splitFront (c :: e :: t) = ((none, [c, e]), t) := by
  have unmarked : splitModifier (c :: e :: t) = (none, c :: e :: t) := by
    rcases splitModifier_cases (c :: e :: t) with h | ⟨d, r, m, split, _, mark, free⟩
    · exact h
    · obtain ⟨rfl, rfl⟩ := List.cons.inj split
      have float : m = .float := by simpa [Modifier.ofChar?, hc] using mark.symm
      exact absurd ((stopsAt_cons.mp (free float)).symm.trans he) Bool.false_ne_true
  simp only [splitFront, unmarked, splitSize_encoding hc he]

/-- A lone `f` is a modifier and an `f` before an encoding letter is none, so only together with
the size is a modifier cut off. -/
theorem isCut_splitFront : IsCut splitFront where
  suffix t := (isCut_splitSize.suffix _).trans (splitModifier_suffix t)
  within x y h := by
    have alike : ∀ m x', splitModifier (x ++ y) = (m, x' ++ y) → splitModifier x = (m, x') →
        splitFront (x ++ y) = ((splitFront x).1, (splitFront x).2 ++ y) := by
      intro m x' longer shorter
      have bound : y.length ≤ (splitSize (x' ++ y)).2.length := by
        simpa [splitFront, longer] using h
      simp only [splitFront, longer, shorter, isCut_splitSize.within x' y bound]
    rcases splitModifier_cases x with shorter | ⟨c, r, m, rfl, shorter, mark, free⟩
    · rcases splitModifier_cases (x ++ y) with longer | ⟨c, r, m, split, longer, mark, free⟩
      · exact alike none x longer shorter
      · cases x with
        | nil =>
          have whole := Nat.le_trans h (isCut_splitSize.length_le _)
          rw [longer, show y = c :: r from split] at whole
          simp only [List.length_cons] at whole
          omega
        | cons d x =>
          obtain ⟨rfl, rfl⟩ := List.cons.inj split
          rw [splitModifier_cons mark fun hm => (free hm).of_append] at shorter
          simp at shorter
    · by_cases still : m = .float → StopsAt isEncoding (r ++ y)
      · exact alike _ r (splitModifier_cons mark still) shorter
      · push Not at still
        obtain ⟨rfl, taken⟩ := still
        cases r with
        | nil =>
          cases y with
          | nil => exact absurd (stopsAt_nil _) taken
          | cons e y =>
            have follows : isEncoding e := by simpa using taken
            have token := splitFront_encoding (t := y) (ofChar?_float mark) follows
            simp only [List.singleton_append, token, List.length_cons] at h
            omega
        | cons e r => exact absurd (free rfl) taken

theorem isCut_splitSign : IsCut splitSign where
  suffix t := by
    unfold splitSign
    split
    · exact List.suffix_refl _
    · split
      · exact List.suffix_cons _ _
      · exact List.suffix_refl _
  within x y h := by
    cases x with
    | cons c x =>
      simp only [splitSign, List.cons_append]
      split <;> rfl
    | nil =>
      cases y with
      | nil => rfl
      | cons c y =>
        simp only [splitSign, List.nil_append] at h ⊢
        split
        · rename_i sign
          simp only [sign, if_true, List.length_cons] at h
          omega
        · rfl

theorem splitSign_sign {d : Char} (h : d = '+' ∨ d = '-') (t : Text) :
    splitSign (d :: t) = ([d], t) := by
  simp [splitSign, h]

theorem isCut_splitWord : IsCut splitWord :=
  isCut_span Char.isAlphanum

theorem splitWord_append {w r : Text} (word : ∀ c ∈ w, c.isAlphanum)
    (stop : StopsAt Char.isAlphanum r) : splitWord (w ++ r) = (w, r) :=
  Prod.ext (takeWhile_append_of_stopsAt word stop) (dropWhile_append_of_stopsAt word stop)

theorem splitFraction_of_stopsAt {t : Text} (h : StopsAt (· == '.') t) :
    splitFraction t = ([], t) := by
  cases t with
  | nil => rfl
  | cons c t =>
    have other : c ≠ '.' := by simpa using h
    simp [splitFraction, other]

theorem isCut_splitFraction : IsCut splitFraction where
  suffix t := by
    unfold splitFraction
    split
    · exact (isCut_splitWord.suffix _).trans (List.suffix_cons _ _)
    · exact List.suffix_refl _
  within x y h := by
    cases x with
    | nil =>
      cases y with
      | nil => rfl
      | cons c y =>
        by_cases dot : c = '.'
        · subst dot
          have bound := isCut_splitWord.length_le y
          simp only [List.nil_append, splitFraction, List.length_cons] at h
          omega
        · exact splitFraction_of_stopsAt (by simpa using dot)
    | cons c x =>
      by_cases dot : c = '.'
      · subst dot
        have rest := isCut_splitWord.within x y (by simpa [splitFraction] using h)
        simp [splitFraction, rest]
      · rw [splitFraction_of_stopsAt (by simpa using dot),
          splitFraction_of_stopsAt (by simpa using dot)]

/-- The payload of an operand is cut off whole. -/
theorem isCut_splitPayload : IsCut splitPayload :=
  ((isCut_splitSign.andThen isCut_splitWord).andThen isCut_splitFraction).map
    fun pieces => pieces.1.1 ++ pieces.1.2 ++ pieces.2

theorem isCut_splitPlain : IsCut splitPlain :=
  (isCut_splitFront.andThen isCut_splitPayload).map
    fun pieces => plain pieces.1.1 pieces.1.2 pieces.2

/-- A payload ends before what could go on in it: letters, digits, and a first dot. -/
theorem splitPayload_rest (t : Text) : StopsAt Char.isAlphanum (splitPayload t).2 ∧
    ('.' ∉ (splitPayload t).1 → StopsAt (· == '.') (splitPayload t).2) := by
  have word : ∀ u, StopsAt Char.isAlphanum (splitWord u).2 := stopsAt_dropWhile _
  let u := (splitWord (splitSign t).2).2
  have taken : (splitPayload t).1 =
    (splitSign t).1 ++ (splitWord (splitSign t).2).1 ++ (splitFraction u).1 := rfl
  have left : (splitPayload t).2 = (splitFraction u).2 := rfl
  rw [taken, left]
  by_cases dot : StopsAt (· == '.') u
  · rw [splitFraction_of_stopsAt dot]
    exact ⟨word _, fun _ => dot⟩
  · obtain ⟨v, hv⟩ : ∃ v, u = '.' :: v := by
      cases hu : u with
      | nil => exact absurd (hu ▸ stopsAt_nil _) dot
      | cons c v => exact ⟨v, by simpa [hu] using dot⟩
    rw [hv]
    exact ⟨word v, fun h => absurd (by simp [splitFraction]) h⟩

end MemLogic.Operand.Spelling
