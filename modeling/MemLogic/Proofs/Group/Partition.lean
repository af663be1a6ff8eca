import MemLogic.Proofs.Group.Appended
import Mathlib.Data.List.Induction

/-! Group texts as the one way to take a text apart: joined by capital letters S they give the text,
they keep size letters alone, and only the last can end in a size mark. -/

namespace MemLogic.Group
open Lookback

variable {before : Lookback} {t x y piece : Text} {pieces : List Text}

instance (x : Text) : Decidable (EndsInHexMark x) :=
  inferInstanceAs (Decidable (_ ∨ _))

/-- Pieces of a text between separators. A size mark at the end of a piece would make a size letter
of the separator behind it. -/
structure IsPartition (t : Text) (pieces : List Text) : Prop where
  nonempty : pieces ≠ []
  joined : ['S'].intercalate pieces = t
  whole : ∀ piece ∈ pieces, Whole piece
  unmarked : ∀ piece ∈ pieces.dropLast, ¬ EndsInHexMark piece

theorem IsPartition.singleton (h : Whole t) : IsPartition t [t] where
  nonempty := List.cons_ne_nil _ _
  joined := List.intercalate_singleton
  whole := by simpa using h
  unmarked := by simp

theorem IsPartition.cons (whole : Whole x) (unmarked : ¬ EndsInHexMark x)
    (h : IsPartition y pieces) : IsPartition (x ++ 'S' :: y) (x :: pieces) where
  nonempty := List.cons_ne_nil _ _
  joined := by
    obtain ⟨next, rest, rfl⟩ := List.exists_cons_of_ne_nil h.nonempty
    rw [List.intercalate_cons_cons, h.joined, List.append_assoc, List.singleton_append]
  whole := List.forall_mem_cons.mpr ⟨whole, h.whole⟩
  unmarked := by
    rw [List.dropLast_cons_of_ne_nil h.nonempty]
    exact List.forall_mem_cons.mpr ⟨unmarked, h.unmarked⟩

/-- Pieces that only have to fit together are those that the text is cut into. -/
theorem IsPartition.split_eq (h : IsPartition t pieces) : split t = pieces := by
  induction pieces generalizing t with
  | nil => exact absurd rfl h.nonempty
  | cons piece pieces ih =>
    obtain ⟨whole, others⟩ := List.forall_mem_cons.mp h.whole
    cases pieces with
    | nil =>
      rw [← h.joined, List.intercalate_singleton]
      exact whole.split_eq
    | cons next pieces =>
      obtain ⟨unmarked, rest⟩ := List.forall_mem_cons.mp h.unmarked
      have tail := ih ⟨List.cons_ne_nil _ _, rfl, others, rest⟩
      rw [← h.joined, List.intercalate_cons_cons, List.append_assoc, List.singleton_append,
        split_append_separator unmarked, whole.split_eq, tail, List.singleton_append]

/-- A text is whole up to its first separator. -/
theorem uncut_or_separator (before : Lookback) (t : Text) : Uncut before t ∨
    ∃ x y, t = x ++ 'S' :: y ∧ Uncut before x ∧ before.through x ≠ .hexMark := by
  induction t generalizing before with
  | nil => exact .inl trivial
  | cons c t ih =>
    by_cases kept : c = 'S' → before = .hexMark
    · rcases ih (before.after c) with rest | ⟨x, y, rfl, rest, unmarked⟩
      · exact .inl ⟨kept, rest⟩
      · exact .inr ⟨c :: x, y, rfl, ⟨kept, rest⟩, unmarked⟩
    · push Not at kept
      obtain ⟨rfl, unmarked⟩ := kept
      exact .inr ⟨[], t, rfl, trivial, unmarked⟩

theorem whole_or_separator (t : Text) :
    Whole t ∨ ∃ x y, t = x ++ 'S' :: y ∧ Whole x ∧ ¬ EndsInHexMark x := by
  simpa only [uncut_iff_whole, ne_eq, through_eq_hexMark] using uncut_or_separator .other t

theorem isPartition_split (t : Text) : IsPartition t (split t) := by
  rcases whole_or_separator t with whole | ⟨x, y, text, whole, unmarked⟩
  · rw [whole.split_eq]
    exact .singleton whole
  · have shorter : y.length < t.length := by
      rw [text, List.length_append, List.length_cons]
      omega
    rw [text, split_append_separator unmarked, whole.split_eq, List.singleton_append]
    exact .cons whole unmarked (isPartition_split y)
termination_by t.length

/-- The positions of the capital letters S that no size mark stands before. -/
def separators (t : Text) : List Nat :=
  (List.range t.length).filter fun i => t[i]? = some 'S' ∧ ¬ EndsInHexMark (t.take i)

theorem separators_concat (t : Text) (c : Char) : separators (t ++ [c]) =
    separators t ++ if c = 'S' ∧ ¬ EndsInHexMark t then [t.length] else [] := by
  have front : ∀ i ∈ List.range t.length,
      (t ++ [c])[i]? = t[i]? ∧ (t ++ [c]).take i = t.take i := by
    intro i member
    have bound := List.mem_range.mp member
    exact ⟨List.getElem?_append_left bound, List.take_append_of_le_length (Nat.le_of_lt bound)⟩
  rw [separators, List.length_append, List.length_singleton, List.range_succ, List.filter_append]
  congr 1
  · refine List.filter_congr fun i member => ?_
    rw [(front i member).1, (front i member).2]
  · simp [List.filter_cons]

/-- A character at the end of a text adds no group unless it is a separator. -/
theorem length_cut_concat {c : Char} (kept : c = 'S' → before.through t = .hexMark) :
    (cut before (t ++ [c])).length = (cut before t).length := by
  induction t generalizing before with
  | nil =>
    have unseparated : ¬ (c = 'S' ∧ before ≠ .hexMark) := fun both => both.2 (kept both.1)
    simp only [List.nil_append, cut, if_neg unseparated, prepend, List.length_singleton]
  | cons d t ih =>
    rw [List.cons_append, cut, cut]
    split
    · rename_i separator
      have forgets : before.after d = .other := by
        simp [after, separator.1]
      rw [List.length_cons, List.length_cons, ih (forgets ▸ kept)]
    · rw [length_prepend (cut_ne_nil _ _), length_prepend (cut_ne_nil _ _), ih kept]

theorem length_split (t : Text) : (split t).length = 1 + (separators t).length := by
  induction t using List.reverseRecOn with
  | nil => rfl
  | append_singleton t c ih =>
    rw [separators_concat]
    by_cases separator : c = 'S' ∧ ¬ EndsInHexMark t
    · obtain ⟨rfl, unmarked⟩ := separator
      have last : split [] = [[]] := rfl
      simp only [split_append_separator unmarked, last, List.length_append, ih, unmarked,
        not_false_eq_true, and_self, if_true, List.length_singleton]
      omega
    · have kept : c = 'S' → other.through t = .hexMark := by
        intro capital
        by_contra unmarked
        exact separator ⟨capital, fun marked => unmarked (through_eq_hexMark.mpr marked)⟩
      rw [if_neg separator, List.append_nil, ← ih]
      exact length_cut_concat kept

/-- Cutting at separators is the inverse of joining: the group texts are the only pieces that fit
together to the text, there is one more of them than separators, and each is whole. -/
theorem isPartition_iff_split (t : Text) :
    (∀ pieces, IsPartition t pieces ↔ pieces = split t) ∧
      (split t).length = 1 + (separators t).length ∧
        ∀ piece ∈ split t, split piece = [piece] := by
  refine ⟨fun pieces => ⟨fun h => h.split_eq.symm, ?_⟩, length_split t, ?_⟩
  · rintro rfl
    exact isPartition_split t
  · exact fun piece member => ((isPartition_split t).whole piece member).split_eq

example : split "0xSSxS".toList = ["0xS".toList, "x".toList, []] := by decide

end MemLogic.Group
