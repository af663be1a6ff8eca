import MemLogic.Error
import Mathlib.Data.List.Forall2

/-! Outcomes of computations that may fail: when steps in a row succeed, and which of them fails. -/

namespace MemLogic
variable {ε α β : Type}

theorem bind_eq_ok {x : Except ε α} {f : α → Except ε β} {b : β} :
    (x >>= f) = .ok b ↔ ∃ a, x = .ok a ∧ f a = .ok b := by
  cases x <;> simp [bind, Except.bind]

theorem bind_eq_error {x : Except ε α} {f : α → Except ε β} {e : ε} :
    (x >>= f) = .error e ↔ x = .error e ∨ ∃ a, x = .ok a ∧ f a = .error e := by
  cases x <;> simp [bind, Except.bind]

theorem map_eq_ok {x : Except ε α} {f : α → β} {b : β} :
    x.map f = .ok b ↔ ∃ a, x = .ok a ∧ f a = b := by
  cases x <;> simp [Except.map]

theorem map_eq_error {x : Except ε α} {f : α → β} {e : ε} :
    x.map f = .error e ↔ x = .error e := by
  cases x <;> simp [Except.map]

theorem pure_eq_ok {a b : α} : (pure a : Except ε α) = .ok b ↔ a = b := by
  simp [pure, Except.pure]

theorem pure_ne_error {a : α} {e : ε} : (pure a : Except ε α) ≠ .error e := by
  simp [pure, Except.pure]

variable {f : α → Except ε β}

/-- A list is worked through when each of its members is. -/
theorem mapM_eq_ok {as : List α} {bs : List β} :
    as.mapM f = .ok bs ↔ List.Forall₂ (fun a b => f a = .ok b) as bs := by
  induction as generalizing bs with
  | nil => cases bs <;> simp [pure, Except.pure]
  | cons a as ih =>
    simp only [List.mapM_cons, bind_eq_ok, pure_eq_ok]
    constructor
    · rintro ⟨b, first, rest, others, rfl⟩
      exact .cons first (ih.mp others)
    · rintro (_ | ⟨first, others⟩)
      exact ⟨_, first, _, ih.mpr others, rfl⟩

theorem mapM_concat_eq_ok {as : List α} {a : α} {bs : List β} : (as ++ [a]).mapM f = .ok bs ↔
    ∃ cs b, as.mapM f = .ok cs ∧ f a = .ok b ∧ bs = cs ++ [b] := by
  simp only [List.mapM_append, List.mapM_cons, List.mapM_nil, bind_eq_ok, pure_eq_ok]
  constructor
  · rintro ⟨cs, others, _, ⟨b, last, _, rfl, rfl⟩, rfl⟩
    exact ⟨cs, b, others, last, rfl⟩
  · rintro ⟨cs, b, others, last, rfl⟩
    exact ⟨cs, others, _, ⟨b, last, _, rfl, rfl⟩, rfl⟩

theorem exists_mapM_ok {as : List α} :
    (∃ bs, as.mapM f = .ok bs) ↔ ∀ a ∈ as, ∃ b, f a = .ok b := by
  induction as with
  | nil => simp [pure, Except.pure]
  | cons a as ih =>
    simp only [List.mapM_cons, bind_eq_ok, pure_eq_ok, List.forall_mem_cons, ← ih]
    constructor
    · rintro ⟨_, b, first, bs, others, _⟩
      exact ⟨⟨b, first⟩, bs, others⟩
    · rintro ⟨⟨b, first⟩, bs, others⟩
      exact ⟨b :: bs, b, first, bs, others, rfl⟩

/-- The first member that fails decides the error, whatever comes after it. -/
theorem mapM_eq_error {as : List α} {e : ε} :
    as.mapM f = .error e ↔ ∃ before a after, as = before ++ a :: after ∧
      (∀ a' ∈ before, ∃ b, f a' = .ok b) ∧ f a = .error e := by
  induction as with
  | nil => simp [pure, Except.pure]
  | cons a as ih =>
    simp only [List.mapM_cons, bind_eq_error, pure_ne_error, and_false, exists_false, or_false, ih]
    constructor
    · rintro (fails | ⟨b, first, before, a', after, rfl, others, fails⟩)
      · exact ⟨[], a, as, rfl, by simp, fails⟩
      · refine ⟨a :: before, a', after, rfl, ?_, fails⟩
        intro c member
        rcases List.mem_cons.mp member with rfl | member
        · exact ⟨b, first⟩
        · exact others c member
    · rintro ⟨before, a', after, split, others, fails⟩
      cases before with
      | nil =>
        obtain ⟨rfl, rfl⟩ := List.cons.inj split
        exact .inl fails
      | cons c before =>
        obtain ⟨rfl, rfl⟩ := List.cons.inj split
        obtain ⟨b, first⟩ := others a List.mem_cons_self
        exact .inr ⟨b, first, before, a', after, rfl,
          fun c member => others c (List.mem_cons_of_mem _ member), fails⟩

section Related
variable {R : α → β → Prop} {as : List α} {bs : List β}

theorem exists_mem_right (h : List.Forall₂ R as bs) : ∀ a ∈ as, ∃ b ∈ bs, R a b := by
  induction h with
  | nil => simp
  | cons first _ ih =>
    refine List.forall_mem_cons.mpr ⟨⟨_, List.mem_cons_self, first⟩, fun a member => ?_⟩
    obtain ⟨b, hb, related⟩ := ih a member
    exact ⟨b, List.mem_cons_of_mem _ hb, related⟩

theorem exists_mem_left (h : List.Forall₂ R as bs) : ∀ b ∈ bs, ∃ a ∈ as, R a b :=
  exists_mem_right (R := flip R) h.flip

end Related
end MemLogic
