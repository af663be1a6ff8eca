import MemLogic.Proofs.Text.LetterCase
import Mathlib.Data.List.TakeWhile

/-! Cuts: readers that take something off the front of a text and leave the rest. What a cut takes
is decided by no more than it takes, so a longer text is cut alike or further on. -/

namespace MemLogic.Text

/-- The text does not begin with a character of the class. -/
def StopsAt (p : Char → Bool) (t : Text) : Prop :=
  ∀ c ∈ t.head?, p c = false

@[simp] theorem stopsAt_nil (p : Char → Bool) : StopsAt p [] := by
  simp [StopsAt]

@[simp] theorem stopsAt_cons {p : Char → Bool} {c : Char} {t : Text} :
    StopsAt p (c :: t) ↔ p c = false := by
  simp [StopsAt]

theorem StopsAt.of_append {p : Char → Bool} {x y : Text} (h : StopsAt p (x ++ y)) :
    StopsAt p x := by
  cases x with
  | nil => exact stopsAt_nil p
  | cons c x => exact h

theorem stopsAt_dropWhile (p : Char → Bool) (t : Text) : StopsAt p (t.dropWhile p) := by
  intro c hc
  have h := List.head?_dropWhile_not p t
  rw [hc] at h
  simpa using h

theorem takeWhile_append_of_stopsAt {p : Char → Bool} {x y : Text} (hx : ∀ c ∈ x, p c)
    (hy : StopsAt p y) : (x ++ y).takeWhile p = x := by
  rw [List.takeWhile_append_of_pos hx]
  cases y with
  | nil => simp
  | cons c y => simp [hy c rfl]

theorem dropWhile_append_of_stopsAt {p : Char → Bool} {x y : Text} (hx : ∀ c ∈ x, p c)
    (hy : StopsAt p y) : (x ++ y).dropWhile p = y := by
  rw [List.dropWhile_append_of_pos hx]
  cases y with
  | nil => rfl
  | cons c y => simp [hy c rfl]

/-- Of two ways to cut a text, the one that leaves more is a cut of the other's front. -/
theorem exists_append_of_length_le {x y p r : Text} (h : x ++ y = p ++ r)
    (bound : y.length ≤ r.length) : ∃ s, x = p ++ s ∧ r = s ++ y := by
  rcases List.append_eq_append_iff.mp h with ⟨s, rfl, rfl⟩ | ⟨s, rfl, rfl⟩
  · have short : s = [] := by
      rw [List.length_append] at bound
      exact List.eq_nil_of_length_eq_zero (by omega)
    exact ⟨[], by simp [short], by simp [short]⟩
  · exact ⟨s, rfl, rfl⟩

/-- A cut that stays within the front of a text is the cut of that front. -/
structure IsCut {α : Type} (f : Text → α × Text) : Prop where
  suffix : ∀ t, (f t).2 <:+ t
  within : ∀ x y, y.length ≤ (f (x ++ y)).2.length → f (x ++ y) = ((f x).1, (f x).2 ++ y)

namespace IsCut

variable {α β : Type} {f : Text → α × Text}

theorem length_le (hf : IsCut f) (t : Text) : (f t).2.length ≤ t.length :=
  (hf.suffix t).length_le

/-- No shorter text is cut further. -/
theorem longest (hf : IsCut f) (x y : Text) :
    (f (x ++ y)).2.length ≤ (f x).2.length + y.length := by
  by_cases h : y.length ≤ (f (x ++ y)).2.length
  · rw [hf.within x y h, List.length_append]
  · omega

/-- What is taken off is taken off alone as well, with nothing left. -/
theorem taken (hf : IsCut f) (t : Text) : ∃ x, t = x ++ (f t).2 ∧ f x = ((f t).1, []) := by
  obtain ⟨x, hx⟩ := hf.suffix t
  have h := hf.within x (f t).2 (by rw [hx])
  rw [hx] at h
  refine ⟨x, hx.symm, Prod.ext (congrArg Prod.fst h).symm ?_⟩
  have rest : (f t).2 = (f x).2 ++ (f t).2 := congrArg Prod.snd h
  simpa using rest

theorem map (hf : IsCut f) (g : α → β) : IsCut fun t => (g (f t).1, (f t).2) where
  suffix := hf.suffix
  within x y h := by rw [hf.within x y h]

theorem andThen (hf : IsCut f) {g : Text → β × Text} (hg : IsCut g) :
    IsCut fun t => (((f t).1, (g (f t).2).1), (g (f t).2).2) where
  suffix t := (hg.suffix _).trans (hf.suffix t)
  within x y h := by
    have first := hf.within x y (Nat.le_trans h (hg.length_le _))
    simp only [first] at h ⊢
    rw [hg.within _ y h]

end IsCut

theorem isCut_span (p : Char → Bool) : IsCut fun t => (t.takeWhile p, t.dropWhile p) where
  suffix _ := List.dropWhile_suffix p
  within x y h := by
    induction x with
    | nil =>
      have same : y.dropWhile p = y := (List.dropWhile_suffix p).eq_of_length_le h
      have whole := List.takeWhile_append_dropWhile (p := p) (l := y)
      rw [same] at whole
      simpa [same] using whole
    | cons c x ih =>
      cases hc : p c with
      | false => simp [hc]
      | true =>
        simp only [List.cons_append, List.dropWhile_cons, List.takeWhile_cons, hc, if_true] at h ⊢
        have rest := ih h
        simp only [Prod.mk.injEq] at rest ⊢
        exact ⟨congrArg (c :: ·) rest.1, rest.2⟩

/-- The first token that fits a text is the first that fits any front of it that it lies in. -/
theorem isCut_splitToken (tokens : List Text) : IsCut (splitToken tokens) where
  suffix t := by
    unfold splitToken
    split
    · exact List.drop_suffix _ _
    · exact List.suffix_refl _
  within x y h := by
    unfold splitToken at h ⊢
    cases hf : tokens.find? (·.isPrefixOf (lower (x ++ y))) with
    | none =>
      have none : tokens.find? (·.isPrefixOf (lower x)) = none := by
        simp only [List.find?_eq_none, List.isPrefixOf_iff_prefix, lower_append] at hf ⊢
        exact fun token ht hp => hf token ht (hp.trans (List.prefix_append _ _))
      simp [none]
    | some token =>
      simp only [hf, List.length_drop, List.length_append] at h
      obtain ⟨fits, before, after, split, earlier⟩ := List.find?_eq_some_iff_append.mp hf
      have bound : token.length ≤ x.length := by
        have := (List.isPrefixOf_iff_prefix.mp fits).length_le
        simp only [length_lower, List.length_append] at this
        omega
      have some : tokens.find? (·.isPrefixOf (lower x)) = some token := by
        refine List.find?_eq_some_iff_append.mpr ⟨?_, before, after, split, ?_⟩
        · rw [List.isPrefixOf_iff_prefix, lower_append] at fits
          exact List.isPrefixOf_iff_prefix.mpr
            (List.prefix_of_prefix_length_le fits (List.prefix_append _ _) (by simpa using bound))
        · intro other ho
          have miss := earlier other ho
          simp only [Bool.not_eq_true', Bool.eq_false_iff, ne_eq, List.isPrefixOf_iff_prefix,
            lower_append] at miss ⊢
          exact fun hp => miss (hp.trans (List.prefix_append _ _))
      simp [some, List.take_append_of_le_length bound, List.drop_append_of_le_length bound]

/-- A token that is taken stands at the front, in some letter case, and is the first to fit. -/
theorem splitToken_cases (tokens : List Text) (t : Text) :
    (splitToken tokens t = ([], t) ∧ ∀ token ∈ tokens, ¬ token <+: lower t) ∨
      ∃ x y, t = x ++ y ∧ splitToken tokens t = (x, y) ∧ lower x ∈ tokens := by
  cases h : tokens.find? (·.isPrefixOf (lower t)) with
  | none =>
    have miss := List.find?_eq_none.mp h
    exact .inl ⟨by simp [splitToken, h], fun token ht => by simpa using miss token ht⟩
  | some token =>
    have fits : token <+: lower t := by simpa using List.find?_some h
    refine .inr ⟨t.take token.length, t.drop token.length, (List.take_append_drop _ _).symm, ?_, ?_⟩
    · simp [splitToken, h]
    · rw [lower_take fits]
      exact List.mem_of_find?_eq_some h

end MemLogic.Text
