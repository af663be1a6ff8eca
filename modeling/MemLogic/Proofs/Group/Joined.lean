import MemLogic.Group
import MemLogic.Proofs.Text.LetterCase

/-! Separators: group texts joined by a capital S, and segments joined by an underscore, fall apart
again where they were joined, and there alone. -/

namespace MemLogic.Group
open Text

/-- No character of the text separates groups, whatever `0x` may precede it. -/
def Uncut (before : Lookback) : Text → Prop
  | [] => True
  | c :: r => (c = 'S' → before = .hexMark) ∧ Uncut (before.after c) r

namespace Lookback

/-- What a text leaves to look back on. -/
def through (before : Lookback) (t : Text) : Lookback :=
  t.foldl after before

theorem through_append (before : Lookback) (x y : Text) :
    before.through (x ++ y) = (before.through x).through y :=
  List.foldl_append

/-- Only an `x` is the end of a `0x`. -/
theorem through_ne_hexMark {t : Text} (h : ∀ c ∈ t.getLast?, c ≠ 'x' ∧ c ≠ 'X') :
    other.through t ≠ .hexMark := by
  rcases List.eq_nil_or_concat t with rfl | ⟨x, c, rfl⟩
  · exact fun same => Lookback.noConfusion same
  · obtain ⟨lower, upper⟩ := h c (by simp)
    rw [List.concat_eq_append, through_append]
    show ((other.through x).after c) ≠ .hexMark
    unfold after
    split
    · exact fun same => Lookback.noConfusion same
    · simp [lower, upper]

end Lookback
open Lookback

variable {before : Lookback} {x y t : Text}

theorem uncut_append : Uncut before (x ++ y) ↔ Uncut before x ∧ Uncut (before.through x) y := by
  induction x generalizing before with
  | nil => simp [Uncut, through]
  | cons c x ih =>
    simp only [List.cons_append, Uncut, ih, and_assoc]
    rfl

/-- What precedes a text can only keep it from being cut. -/
theorem Uncut.weaken {a b : Lookback} (h : Uncut a t) (weaker : a = .other ∨ a = b) :
    Uncut b t := by
  induction t generalizing a b with
  | nil => trivial
  | cons c t ih =>
    obtain ⟨kept, rest⟩ := h
    refine ⟨?_, ih rest ?_⟩
    · intro separator
      rcases weaker with rfl | rfl
      · exact absurd (kept separator) (by simp)
      · exact kept separator
    · rcases weaker with rfl | rfl
      · by_cases zero : c = '0'
        · simp [after, zero]
        · simp [after, zero]
      · exact .inr rfl

theorem Uncut.append (hx : Uncut .other x) (hy : Uncut .other y) : Uncut .other (x ++ y) :=
  uncut_append.mpr ⟨hx, hy.weaken (.inl rfl)⟩

theorem uncut_of_not_mem (h : 'S' ∉ t) : Uncut before t := by
  induction t generalizing before with
  | nil => trivial
  | cons c t ih =>
    obtain ⟨first, rest⟩ := not_or.mp (List.mem_cons.not.mp h)
    exact ⟨fun same => absurd same.symm first, ih rest⟩

theorem cut_of_uncut (h : Uncut before t) : cut before t = [t] := by
  induction t generalizing before with
  | nil => rfl
  | cons c t ih =>
    obtain ⟨kept, rest⟩ := h
    rw [cut, if_neg fun both => both.2 (kept both.1), ih rest, prepend]

theorem cut_separator (h : Uncut before t) (free : before.through t ≠ .hexMark) (r : Text) :
    cut before (t ++ 'S' :: r) = t :: cut .other r := by
  induction t generalizing before with
  | nil =>
    have unmarked : before ≠ .hexMark := free
    simp [cut, unmarked]
  | cons c t ih =>
    obtain ⟨kept, rest⟩ := h
    rw [List.cons_append, cut, if_neg fun both => both.2 (kept both.1), ih rest free, prepend]

/-- A text that has no separator in it and that keeps none behind it from being one. -/
def Closed (t : Text) : Prop :=
  Uncut .other t ∧ ∀ c ∈ t.getLast?, c ≠ 'x' ∧ c ≠ 'X'

theorem Closed.append (hx : Closed x) (hy : Closed y) : Closed (x ++ y) := by
  refine ⟨hx.1.append hy.1, ?_⟩
  intro c last
  rw [List.getLast?_append, Option.mem_def, Option.or_eq_some_iff] at last
  rcases last with last | ⟨_, last⟩
  · exact hy.2 c last
  · exact hx.2 c last

theorem closed_of_lower (h : ∀ c ∈ lower t, c ∉ ['s', 'x']) : Closed t := by
  have other : ∀ c ∈ t, c ∉ ['S', 'x', 'X'] := by
    intro c hc member
    have all : ∀ d ∈ ['S', 'x', 'X'], d.toLower ∈ ['s', 'x'] := by decide
    exact h c.toLower (List.mem_map_of_mem hc) (all c member)
  refine ⟨uncut_of_not_mem fun member => other _ member (by decide), ?_⟩
  intro c last
  have member := List.mem_of_getLast? last
  constructor
  · rintro rfl
    exact other _ member (by decide)
  · rintro rfl
    exact other _ member (by decide)

/-- Joined group texts fall apart into the same. -/
theorem split_intercalate {pieces : List Text} (nonempty : pieces ≠ [])
    (closed : ∀ piece ∈ pieces, Closed piece) : split (['S'].intercalate pieces) = pieces := by
  unfold split
  induction pieces with
  | nil => exact absurd rfl nonempty
  | cons piece pieces ih =>
    obtain ⟨first, rest⟩ := List.forall_mem_cons.mp closed
    cases pieces with
    | nil => rw [List.intercalate_singleton, cut_of_uncut first.1]
    | cons next pieces =>
      rw [List.intercalate_cons_cons, List.append_assoc, List.singleton_append,
        cut_separator first.1 (Lookback.through_ne_hexMark first.2), ih (List.cons_ne_nil _ _) rest]

theorem closed_intercalate {ss : List Text} (h : ∀ s ∈ ss, Closed s) :
    Closed (['_'].intercalate ss) := by
  induction ss with
  | nil => exact closed_of_lower (t := []) (by simp)
  | cons s ss ih =>
    obtain ⟨first, rest⟩ := List.forall_mem_cons.mp h
    cases ss with
    | nil => rwa [List.intercalate_singleton]
    | cons next ss =>
      rw [List.intercalate_cons_cons]
      exact (first.append (closed_of_lower (by decide))).append (ih rest)

/-- Joined segments fall apart into the same. -/
theorem segments_intercalate {ss : List Text} (whole : ∀ s ∈ ss, '_' ∉ s)
    (nonempty : ∀ s ∈ ss, s ≠ []) : segments (['_'].intercalate ss) = ss := by
  unfold segments
  cases ss with
  | nil => rfl
  | cons s ss =>
    rw [List.splitOn_intercalate _ whole (List.cons_ne_nil _ _), List.filter_eq_self]
    exact fun s hs => by simpa using nonempty s hs

theorem segments_eq_singleton (whole : '_' ∉ t) (nonempty : t ≠ []) : segments t = [t] := by
  have alone := @segments_intercalate [t] (by simpa using whole) (by simpa using nonempty)
  rwa [List.intercalate_singleton] at alone

end MemLogic.Group
