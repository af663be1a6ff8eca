import MemLogic.Operand.Grammar
import MemLogic.Proofs.Text.Cut

/-! Patterns in ordered choice: what each combinator can take off a text, and which way to take a
whole text it prefers. What a pattern takes off the front of a longer text without going into the
rest it takes off the front alone, in the same order; so where a second pattern takes up one rest
only, the most preferred way through both is the most preferred way through each. -/

namespace MemLogic.Operand.Grammar
open Text
namespace Pattern

variable {α β : Type} {p : Pattern α} {q : Pattern β} {next : α → Pattern β}
  {inClass : Char → Bool} {t u w x r rest : Text} {a : α} {b : β}

theorem mem_andThen :
    (b, rest) ∈ andThen p next t ↔ ∃ a u, (a, u) ∈ p t ∧ (b, rest) ∈ next a u := by
  simp [andThen]

theorem mem_yield {a b : α} : (b, rest) ∈ yield a t ↔ b = a ∧ rest = t := by
  simp [yield]

theorem mem_optional {o : Option α} : (o, rest) ∈ optional p t ↔
    (∃ a, o = some a ∧ (a, rest) ∈ p t) ∨ o = none ∧ rest = t := by
  simp [optional, eq_comm, and_comm]

theorem mem_one {c : Char} : (c, rest) ∈ one inClass t ↔ t = c :: rest ∧ inClass c := by
  cases t with
  | nil => simp [one]
  | cons d t =>
    rw [one]
    split
    · rename_i member
      simp only [List.mem_singleton, Prod.mk.injEq, List.cons.injEq]
      constructor
      · rintro ⟨rfl, rfl⟩
        exact ⟨⟨rfl, rfl⟩, member⟩
      · rintro ⟨⟨rfl, rfl⟩, _⟩
        exact ⟨rfl, rfl⟩
    · rename_i other
      simp only [List.not_mem_nil, false_iff, List.cons.injEq]
      rintro ⟨⟨rfl, _⟩, member⟩
      exact other member

theorem mem_many :
    (w, rest) ∈ many inClass t ↔ t = w ++ rest ∧ ∀ c ∈ w, inClass c := by
  induction t generalizing w rest with
  | nil =>
    simp only [many, List.mem_singleton, Prod.mk.injEq, List.nil_eq, List.append_eq_nil_iff]
    constructor
    · rintro ⟨rfl, rfl⟩
      simp
    · exact And.left
  | cons d t ih =>
    rw [many]
    split
    · rename_i member
      simp only [List.mem_append, List.mem_map, Prod.exists, Prod.mk.injEq, ih, List.mem_singleton]
      constructor
      · rintro (⟨v, r, ⟨rfl, row⟩, rfl, rfl⟩ | ⟨rfl, rfl⟩)
        · exact ⟨rfl, List.forall_mem_cons.mpr ⟨member, row⟩⟩
        · simp
      · rintro ⟨text, row⟩
        cases w with
        | nil => exact .inr ⟨rfl, text.symm⟩
        | cons c w =>
          obtain ⟨rfl, rfl⟩ := List.cons.inj text
          exact .inl ⟨w, rest, ⟨rfl, (List.forall_mem_cons.mp row).2⟩, rfl, rfl⟩
    · rename_i other
      simp only [List.mem_singleton, Prod.mk.injEq]
      constructor
      · rintro ⟨rfl, rfl⟩
        simp
      · rintro ⟨text, row⟩
        cases w with
        | nil => exact ⟨rfl, text.symm⟩
        | cons c w =>
          obtain ⟨rfl, _⟩ := List.cons.inj text
          exact absurd (row d List.mem_cons_self) other

theorem mem_many1 :
    (w, rest) ∈ many1 inClass t ↔ t = w ++ rest ∧ w ≠ [] ∧ ∀ c ∈ w, inClass c := by
  simp only [many1, mem_andThen, mem_one, mem_many, mem_yield]
  constructor
  · rintro ⟨c, _, ⟨rfl, first⟩, w, _, ⟨rfl, row⟩, rfl, rfl⟩
    exact ⟨rfl, List.cons_ne_nil _ _, List.forall_mem_cons.mpr ⟨first, row⟩⟩
  · rintro ⟨rfl, nonempty, row⟩
    obtain ⟨c, w, rfl⟩ := List.exists_cons_of_ne_nil nonempty
    obtain ⟨first, others⟩ := List.forall_mem_cons.mp row
    exact ⟨c, _, ⟨rfl, first⟩, w, _, ⟨rfl, others⟩, rfl, rfl⟩

theorem mem_word : (w, rest) ∈ word t ↔ t = w ++ rest ∧ ∀ c ∈ w, c.isAlphanum :=
  mem_many

theorem mem_token {tokens : List Text} :
    (w, rest) ∈ token tokens t ↔ t = w ++ rest ∧ lower w ∈ tokens := by
  simp only [token, List.mem_map, List.mem_filter, List.isPrefixOf_iff_prefix, List.splitAt_eq,
    Prod.mk.injEq]
  constructor
  · rintro ⟨k, ⟨known, fits⟩, rfl, rfl⟩
    exact ⟨(List.take_append_drop _ _).symm, by rwa [lower_take fits]⟩
  · rintro ⟨rfl, known⟩
    refine ⟨lower w, ⟨known, ?_⟩, ?_, ?_⟩
    · rw [lower_append]
      exact List.prefix_append _ _
    · simp
    · simp

theorem mem_unlessNext {x : Unit} :
    (x, rest) ∈ unlessNext inClass t ↔ rest = t ∧ StopsAt inClass t := by
  cases t with
  | nil => simp [unlessNext]
  | cons c t => by_cases member : inClass c <;> simp [unlessNext, member]

theorem whole?_eq_none : whole? p t = none ↔ ∀ a, (a, []) ∉ p t := by
  simp only [whole?, Option.map_eq_none_iff, List.find?_eq_none, Prod.forall, List.isEmpty_iff]
  constructor
  · exact fun partly a member => partly a [] member rfl
  · rintro never a _ member rfl
    exact never a member

theorem mem_of_whole? (h : whole? p t = some a) : (a, []) ∈ p t := by
  obtain ⟨⟨_, rest⟩, found, rfl⟩ := Option.map_eq_some_iff.mp h
  have empty : rest = [] := by simpa using List.find?_some found
  exact empty ▸ List.mem_of_find?_eq_some found

/-- Where there is one way to take a whole text, no other is preferred to it. -/
theorem whole?_eq_some (member : (a, []) ∈ p t) (unique : ∀ b, (b, []) ∈ p t → b = a) :
    whole? p t = some a := by
  cases found : whole? p t with
  | none => exact absurd member (whole?_eq_none.mp found a)
  | some b => rw [unique b (mem_of_whole? found)]

theorem whole?_eq_of_forall {o : Option α} (h : ∀ a, (a, []) ∈ p t ↔ o = some a) :
    whole? p t = o := by
  cases o with
  | some a =>
    exact whole?_eq_some ((h a).mpr rfl) fun b member => (Option.some.inj ((h b).mp member)).symm
  | none => exact whole?_eq_none.mpr fun a member => Option.some_ne_none _ ((h a).mp member).symm

theorem whole?_choice_cons (p : Pattern α) (ps : List (Pattern α)) (t : Text) :
    whole? (choice (p :: ps)) t = (whole? p t).or (whole? (choice ps) t) := by
  simp [whole?, choice, List.find?_append, Option.map_or]

theorem whole?_yield (a : α) (t : Text) : whole? (yield a) t = if t = [] then some a else none := by
  cases t <;> rfl

/-- The first way of the first pattern that the rest of the text can follow is the one taken. -/
theorem whole?_andThen_eq (p : Pattern α) (next : α → Pattern β) (t : Text) :
    whole? (andThen p next) t = (p t).findSome? fun e => whole? (next e.1) e.2 := by
  rw [whole?, andThen, List.find?_flatMap, List.map_findSome?]
  rfl

theorem whole?_map (p : Pattern α) (f : α → β) (t : Text) :
    whole? (andThen p fun a => yield (f a)) t = (whole? p t).map f := by
  rw [whole?_andThen_eq, whole?, List.find?_eq_findSome?_guard, Option.map_map, List.map_findSome?]
  congr 1
  funext e
  rw [whole?_yield]
  by_cases empty : e.2 = [] <;> simp [Option.guard, empty]

theorem whole?_both_eq (p : Pattern α) (q : Pattern β) (t : Text) :
    whole? (both p q) t = (p t).findSome? fun e => (whole? q e.2).map fun b => (e.1, b) := by
  simp only [both, whole?_andThen_eq p, whole?_map]

/-- To take something is preferred, and to take nothing is a way to take the empty text. -/
theorem whole?_optional (p : Pattern α) (t : Text) :
    whole? (optional p) t = ((whole? p t).map some).or (if t = [] then some none else none) := by
  have last : ([(none, t)] : List (Option α × Text)).find? (·.2.isEmpty) =
      if t = [] then some (none, t) else none := by
    cases t <;> rfl
  rw [whole?, optional, List.find?_append, List.find?_map, last, Option.map_or, whole?,
    Option.map_map, Option.map_map, apply_ite (Option.map Prod.fst)]
  rfl

/-- What the most preferred first part leads to is preferred to all that others lead to. -/
theorem whole?_andThen (first : (p t).head? = some (a, u)) (found : whole? (next a) u = some b) :
    whole? (andThen p next) t = some b := by
  obtain ⟨more, order⟩ := List.head?_eq_some_iff.mp first
  rw [whole?_andThen_eq, order, List.findSome?_cons, found]

theorem head?_andThen {e : β × Text} (first : (p t).head? = some (a, u))
    (second : (next a u).head? = some e) : (andThen p next t).head? = some e := by
  obtain ⟨_, order⟩ := List.head?_eq_some_iff.mp first
  simp [andThen, order, second]

/-- Where all ways are one, that is preferred. -/
theorem head?_of_forall {e : α × Text} (member : e ∈ p t) (same : ∀ e' ∈ p t, e' = e) :
    (p t).head? = some e := by
  obtain ⟨e', more, order⟩ := List.exists_cons_of_ne_nil (List.ne_nil_of_mem member)
  rw [order, List.head?_cons, same e' (by simp [order])]

theorem head?_optional (first : (p t).head? = some (a, u)) :
    (optional p t).head? = some (some a, u) := by
  obtain ⟨_, order⟩ := List.head?_eq_some_iff.mp first
  simp [optional, order]

theorem head?_many (inClass : Char → Bool) (t : Text) :
    (many inClass t).head? = some (t.takeWhile inClass, t.dropWhile inClass) := by
  induction t with
  | nil => rfl
  | cons c t ih => cases member : inClass c <;> simp [many, member, ih]

/-- Apart from the ways that go into the rest, the pattern takes off a longer text what it takes off
the front alone, in the same order. -/
structure IsLocal (p : Pattern α) (r : Text) : Prop where
  suffix : ∀ t, ∀ e ∈ p t, e.2 <:+ t
  within : ∀ x, (p (x ++ r)).filter (r.length ≤ ·.2.length) = (p x).map fun e => (e.1, e.2 ++ r)

theorem flatMap_filter_of_nil {γ : Type} {keep : α → Bool} {f : α → List γ} {l : List α}
    (dropped : ∀ e ∈ l, keep e = false → f e = []) : (l.filter keep).flatMap f = l.flatMap f := by
  induction l with
  | nil => rfl
  | cons e l ih =>
    have rest := ih fun e' member => dropped e' (List.mem_cons_of_mem _ member)
    cases kept : keep e with
    | true => rw [List.filter_cons_of_pos kept, List.flatMap_cons, List.flatMap_cons, rest]
    | false =>
      rw [List.filter_cons_of_neg (by simp [kept]), List.flatMap_cons, rest,
        dropped e List.mem_cons_self kept, List.nil_append]

/-- What stays before the rest is kept. -/
theorem filter_stays (a : α) (x r : Text) :
    [(a, x ++ r)].filter (r.length ≤ ·.2.length) = [(a, x ++ r)] := by
  simp

namespace IsLocal

theorem yield (a : α) (r : Text) : IsLocal (yield a) r where
  suffix t e member := by
    obtain ⟨_, rfl⟩ := mem_yield.mp member
    exact List.suffix_refl _
  within x := by simp [Pattern.yield]

theorem nothing (r : Text) : IsLocal (fun _ => [] : Pattern α) r where
  suffix _ _ member := absurd member List.not_mem_nil
  within _ := rfl

theorem append {p q : Pattern α} (hp : IsLocal p r) (hq : IsLocal q r) :
    IsLocal (fun t => p t ++ q t) r where
  suffix t e member := (List.mem_append.mp member).elim (hp.suffix t e) (hq.suffix t e)
  within x := by rw [List.filter_append, List.map_append, hp.within, hq.within]

theorem choice {ps : List (Pattern α)} (all : ∀ p ∈ ps, IsLocal p r) : IsLocal (choice ps) r := by
  induction ps with
  | nil => exact nothing r
  | cons p ps ih =>
    exact (all p List.mem_cons_self).append (ih fun q hq => all q (List.mem_cons_of_mem _ hq))

theorem andThen (hp : IsLocal p r) (hnext : ∀ a, IsLocal (next a) r) :
    IsLocal (andThen p next) r where
  suffix t e member := by
    obtain ⟨a, u, first, second⟩ := mem_andThen.mp member
    exact ((hnext a).suffix u e second).trans (hp.suffix t (a, u) first)
  within x := by
    -- what goes into the rest at once leads to nothing that stays before it
    have dropped : ∀ e ∈ p (x ++ r), decide (r.length ≤ e.2.length) = false →
        (next e.1 e.2).filter (r.length ≤ ·.2.length) = [] := by
      intro e _ beyond
      refine List.filter_eq_nil_iff.mpr fun e' member => ?_
      have bound := ((hnext e.1).suffix e.2 e' member).length_le
      simp only [decide_eq_true_eq, decide_eq_false_iff_not] at beyond ⊢
      omega
    calc (Pattern.andThen p next (x ++ r)).filter (r.length ≤ ·.2.length)
        = (p (x ++ r)).flatMap fun e => (next e.1 e.2).filter (r.length ≤ ·.2.length) :=
          List.filter_flatMap
      _ = ((p (x ++ r)).filter (r.length ≤ ·.2.length)).flatMap fun e =>
            (next e.1 e.2).filter (r.length ≤ ·.2.length) :=
          (flatMap_filter_of_nil dropped).symm
      _ = (p x).flatMap fun e => (next e.1 e.2).map fun e' => (e'.1, e'.2 ++ r) := by
          rw [hp.within, List.flatMap_map]
          exact List.flatMap_congr fun e _ => (hnext e.1).within e.2
      _ = (Pattern.andThen p next x).map fun e => (e.1, e.2 ++ r) :=
          List.map_flatMap.symm

theorem both (hp : IsLocal p r) (hq : IsLocal q r) : IsLocal (both p q) r :=
  hp.andThen fun a => hq.andThen fun b => yield (a, b) r

theorem map (hp : IsLocal p r) (f : α → β) :
    IsLocal (fun t => (p t).map fun e => (f e.1, e.2)) r where
  suffix t e member := by
    obtain ⟨e', first, rfl⟩ := List.mem_map.mp member
    exact hp.suffix t e' first
  within x := by
    rw [List.filter_map, List.map_map]
    exact (congrArg (List.map _) (hp.within x)).trans List.map_map

theorem optional (hp : IsLocal p r) : IsLocal (optional p) r :=
  (hp.map some).append (yield none r)

theorem one (inClass : Char → Bool) (r : Text) : IsLocal (one inClass) r where
  suffix t e member := by
    obtain ⟨rfl, _⟩ := mem_one.mp member
    exact List.suffix_cons _ _
  within x := by
    cases x with
    | cons c x =>
      simp only [List.cons_append, Pattern.one]
      split <;> simp
    | nil =>
      refine List.filter_eq_nil_iff.mpr fun e member => ?_
      obtain ⟨rfl, _⟩ := mem_one.mp member
      simp

theorem many (inClass : Char → Bool) (r : Text) : IsLocal (many inClass) r where
  suffix t e member := by
    obtain ⟨rfl, _⟩ := mem_many.mp member
    exact List.suffix_append _ _
  within x := by
    induction x with
    | nil =>
      cases r with
      | nil => rfl
      | cons c r =>
        have beyond : ((Pattern.many inClass r).map fun e => (c :: e.1, e.2)).filter
            (fun e => (c :: r).length ≤ e.2.length) = [] := by
          refine List.filter_eq_nil_iff.mpr fun e member => ?_
          obtain ⟨⟨w, rest⟩, taken, rfl⟩ := List.mem_map.mp member
          obtain ⟨rfl, _⟩ := mem_many.mp taken
          simp only [List.length_cons, List.length_append, decide_eq_true_eq]
          omega
        simp only [List.nil_append, Pattern.many]
        split
        · rw [List.filter_append, beyond]
          exact filter_stays [] [] (c :: r)
        · exact filter_stays [] [] (c :: r)
    | cons c x ih =>
      have alone := filter_stays ([] : Text) (c :: x) r
      simp only [List.cons_append, Pattern.many] at alone ⊢
      split
      · rw [List.filter_append, List.filter_map, List.map_append, List.map_map, alone]
        exact congrArg (· ++ _) ((congrArg (List.map _) ih).trans List.map_map)
      · exact alone

theorem many1 (inClass : Char → Bool) (r : Text) : IsLocal (many1 inClass) r :=
  (one inClass r).andThen fun c => (many inClass r).andThen fun w => yield (c :: w) r

theorem token (tokens : List Text) (r : Text) : IsLocal (token tokens) r where
  suffix t e member := by
    obtain ⟨rfl, _⟩ := mem_token.mp member
    exact List.suffix_append _ _
  within x := by
    have fits : ∀ k : Text, (decide (r.length ≤ ((x ++ r).splitAt k.length).2.length) &&
        k.isPrefixOf (lower (x ++ r))) = k.isPrefixOf (lower x) := by
      intro k
      rw [Bool.eq_iff_iff, Bool.and_eq_true, decide_eq_true_eq, List.isPrefixOf_iff_prefix,
        List.isPrefixOf_iff_prefix, lower_append, List.splitAt_eq, List.length_drop,
        List.length_append]
      constructor
      · rintro ⟨stays, fits⟩
        have bound := fits.length_le
        simp only [List.length_append, length_lower] at bound
        refine List.prefix_of_prefix_length_le fits (List.prefix_append _ _) ?_
        rw [length_lower]
        omega
      · intro fits
        have bound := fits.length_le
        rw [length_lower] at bound
        exact ⟨by omega, fits.trans (List.prefix_append _ _)⟩
    simp only [Pattern.token, List.filter_map, List.filter_filter, List.map_map,
      Function.comp_apply, fits]
    refine List.map_congr_left fun k member => ?_
    have bound := (List.isPrefixOf_iff_prefix.mp (List.mem_filter.mp member).2).length_le
    rw [length_lower] at bound
    simp only [Function.comp_apply, List.splitAt_eq, List.take_append_of_le_length bound,
      List.drop_append_of_le_length bound]

theorem unlessNext (stop : StopsAt inClass r) : IsLocal (unlessNext inClass) r where
  suffix t e member := by
    obtain ⟨rfl, _⟩ := mem_unlessNext.mp member
    exact List.suffix_refl _
  within x := by
    have first : (x ++ r).head?.any inClass = x.head?.any inClass := by
      cases x with
      | cons c x => rfl
      | nil =>
        cases r with
        | nil => rfl
        | cons c r => exact stopsAt_cons.mp stop
    simp only [Pattern.unlessNext, first]
    split
    · rfl
    · exact filter_stays () x r

variable (h : IsLocal p r)
include h

theorem mem_append : (a, u ++ r) ∈ p (x ++ r) ↔ (a, u) ∈ p x := by
  have stays : (a, u ++ r) ∈ (p (x ++ r)).filter (r.length ≤ ·.2.length) ↔
      (a, u ++ r) ∈ p (x ++ r) := by
    simp
  rw [← stays, h.within]
  simp

/-- The first way to leave just the rest is the most preferred way to take the front alone. -/
theorem find?_rest (x : Text) :
    (p (x ++ r)).find? (·.2 == r) = (whole? p x).map fun a => (a, r) := by
  have stays : (p (x ++ r)).find? (·.2 == r) =
      ((p (x ++ r)).filter (r.length ≤ ·.2.length)).find? (·.2 == r) := by
    rw [List.find?_filter]
    congr 1
    funext e
    by_cases same : e.2 = r <;> simp [same]
  have front : ((·.2 == r) ∘ fun e : α × Text => (e.1, e.2 ++ r)) = fun e => e.2.isEmpty := by
    funext e
    rw [Function.comp_apply, Bool.eq_iff_iff]
    simp
  rw [stays, h.within, List.find?_map, front, whole?, Option.map_map]
  cases found : (p x).find? (·.2.isEmpty) with
  | none => rfl
  | some e =>
    have empty : e.2 = [] := by simpa using List.find?_some found
    simp [empty]

end IsLocal

/-- Where the second pattern takes up one rest only, each takes its part as it would alone. -/
theorem whole?_both (h : IsLocal p r) (only : ∀ e ∈ p (x ++ r), whole? q e.2 ≠ none → e.2 = r) :
    whole? (both p q) (x ++ r) =
      (whole? p x).bind fun a => (whole? q r).map fun b => (a, b) := by
  have refused : ∀ e ∈ p (x ++ r), e.2 ≠ r → whole? q e.2 = none := fun e member other =>
    by_contra fun taken => other (only e member taken)
  have first := h.find?_rest x
  rw [whole?_both_eq]
  cases whole : whole? p x with
  | none =>
    rw [whole, Option.map_none, List.find?_eq_none] at first
    rw [Option.bind_none, List.findSome?_eq_none_iff]
    intro e member
    rw [refused e member (by simpa using first e member), Option.map_none]
  | some a =>
    rw [whole, Option.map_some, List.find?_eq_some_iff_append] at first
    obtain ⟨_, before, more, order, others⟩ := first
    have skipped : before.findSome? (fun e => (whole? q e.2).map fun b => (e.1, b)) = none := by
      rw [List.findSome?_eq_none_iff]
      intro e member
      have other : e.2 ≠ r := by simpa using others e member
      rw [refused e (by simp [order, member]) other, Option.map_none]
    cases taken : whole? q r with
    | some b => simp [order, List.findSome?_append, skipped, taken]
    | none =>
      rw [Option.bind_some, Option.map_none, List.findSome?_eq_none_iff]
      intro e member
      by_cases same : e.2 = r
      · rw [same, taken, Option.map_none]
      · rw [refused e member same, Option.map_none]

end Pattern
end MemLogic.Operand.Grammar
