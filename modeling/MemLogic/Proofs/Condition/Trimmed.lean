import MemLogic.Proofs.Condition.Concatenation
import MemLogic.Proofs.Requirement.Blanks

/-! Conditions without blanks at their ends: one that is read has no other blanks than the spaces of
sizes, so that trimming takes off a single one, and what is left is read again. -/

namespace MemLogic
open Text

namespace Group

variable {u x : Text} {g : Group}

theorem exists_split_space (x : Text) :
    ∃ xs u, split x = xs ++ [u] ∧ split (x ++ [' ']) = xs ++ [u ++ [' ']] := by
  obtain ⟨xs, u, v, ys, first, second, whole⟩ :=
    cut_append_boundary (c := ' ') (by decide) .other x []
  obtain ⟨rfl, rfl⟩ := List.cons.inj second
  exact ⟨xs, u, first, whole⟩

/-- The last segment is the one with the space, which is a segment of its own where none was. -/
theorem exists_segments_space (u : Text) : ∃ ss w,
    segments (u ++ [' ']) = ss ++ [w ++ [' ']] ∧ (w ≠ [] → segments u = ss ++ [w]) := by
  have last {w : Text} (whole : '_' ∉ w) :
      segments (w ++ [' ']) = [w ++ [' ']] ∧ (w ≠ [] → segments w = [w]) :=
    ⟨segments_eq_singleton (by simp [whole]) (by simp), segments_eq_singleton whole⟩
  by_cases member : '_' ∈ u.reverse
  · obtain ⟨w', x', split, whole⟩ := List.eq_append_cons_of_mem member
    obtain rfl : u = x'.reverse ++ '_' :: w'.reverse := by
      rw [← List.reverse_reverse u, split]
      simp
    obtain ⟨spaced, plain⟩ := last (w := w'.reverse) (by simpa using whole)
    refine ⟨segments x'.reverse, w'.reverse, ?_, fun nonempty => ?_⟩
    · rw [List.append_assoc, List.cons_append, segments_append_underscore, spaced]
    · rw [segments_append_underscore, plain nonempty]
  · exact ⟨[], u, last (by simpa using member)⟩

/-- The segment that ends a text with a loose sign. -/
def EndsLoosely (ss : List Text) : Prop :=
  ∃ s ∈ ss.getLast?, Requirement.HasLooseSign s

theorem read_space (h : read (u ++ [' ']) = .ok g) : segments u ≠ [] ∧
    ∃ g', read u = .ok g' ∧ (g' = g ↔ ¬ EndsLoosely (segments u)) := by
  obtain ⟨ss, w, spaced, plain⟩ := exists_segments_space u
  have present : segments (u ++ [' ']) ≠ [] := by simp [spaced]
  have each := ((read_eq_ok.mp h).resolve_left fun empty => present empty.1).2
  rw [spaced, ← mapM_eq_ok, mapM_concat_eq_ok] at each
  obtain ⟨qs, q, others, final, rfl⟩ := each
  have nonempty : w ≠ [] := by
    rintro rfl
    exact absurd ((Requirement.blanksMarked_of_read final).head? ' ' rfl) (by decide)
  obtain ⟨q', outcome, same⟩ := Requirement.read_space final
  rw [plain nonempty]
  refine ⟨by simp, qs ++ [q'], read_eq_ok.mpr (.inr ⟨?_, ?_⟩), ?_⟩
  · simp [plain nonempty]
  · rw [plain nonempty, ← mapM_eq_ok, mapM_concat_eq_ok]
    exact ⟨qs, q', others, outcome, rfl⟩
  · simpa [EndsLoosely] using same

end Group

namespace Condition

variable {t x : Text} {c : Condition}

theorem blanksMarked_of_read (h : read t = .ok c) : Group.BlanksMarked t := by
  have each := exists_read.mp ⟨c, h⟩
  rw [← (Group.isPartition_split t).joined]
  refine Group.blanksMarked_intercalate (by decide) fun piece member => ?_
  have joined : ['_'].intercalate (piece.splitOn '_') = piece := List.intercalate_splitOn '_'
  rw [← joined]
  refine Group.blanksMarked_intercalate (by decide) fun s inside => ?_
  by_cases empty : s = []
  · exact Group.blanksMarked_of_forall (by simp [empty])
  · have segment : s ∈ segments t :=
      List.mem_flatMap.mpr ⟨piece, member, List.mem_filter.mpr ⟨inside, by simpa using empty⟩⟩
    obtain ⟨q, outcome⟩ := each s segment
    exact Requirement.blanksMarked_of_read outcome

/-- Without the space at its end a condition is read as the same, unless a sign becomes loose. -/
theorem read_space (h : read (x ++ [' ']) = .ok c) :
    ∃ c', read x = .ok c' ∧ (c' = c ↔ ¬ Group.EndsLoosely (segments x)) := by
  obtain ⟨xs, u, plain, spaced⟩ := Group.exists_split_space x
  obtain ⟨groups, addresses⟩ := read_eq_ok_iff_mapM.mp h
  rw [spaced, mapM_concat_eq_ok] at groups
  obtain ⟨gs, g, others, last, same⟩ := groups
  obtain ⟨present, g', outcome, unchanged⟩ := Group.read_space last
  have final : (segments x).getLast? = (Group.segments u).getLast? := by
    rw [segments, plain, List.flatMap_append, List.flatMap_singleton]
    exact List.getLast?_append_of_ne_nil _ present
  refine ⟨ofGroups (gs ++ [g']), read_eq_ok_iff_mapM.mpr ⟨?_, rfl⟩, ?_⟩
  · rw [plain, mapM_concat_eq_ok]
    exact ⟨gs, g', others, outcome, rfl⟩
  · have whole : c = ofGroups (gs ++ [g]) := by
      rw [ofGroups, ← same, ← addresses]
    rw [Group.EndsLoosely, final, ← Group.EndsLoosely, ← unchanged, whole]
    constructor
    · intro together
      simpa [ofGroups] using congrArg Condition.groups together
    · rintro rfl
      rfl

/-- The text ends in a space behind a sign that is loose without it. -/
def LosesSign (t : Text) : Prop :=
  t = trim t ++ [' '] ∧ Group.EndsLoosely (segments (trim t))

/-- Trimming a text that is read. -/
theorem read_trim (h : read t = .ok c) (nonempty : t ≠ []) : trim t ≠ [] ∧
    (trim t = t ∨ t = trim t ++ [' '] ∧ Group.EndsInHexMark (trim t)) ∧
      ∃ c', read (trim t) = .ok c' ∧ (c' = c ↔ ¬ LosesSign t) := by
  have cases := (blanksMarked_of_read h).trim_cases
  refine ⟨?_, cases, ?_⟩
  · rintro empty
    rcases cases with same | ⟨_, marked⟩
    · exact nonempty (same.symm.trans empty)
    · exact Group.not_endsInHexMark_nil (empty ▸ marked)
  · rcases cases with same | ⟨space, _⟩
    · have kept : ¬ LosesSign t := by
        rintro ⟨space, _⟩
        rw [same] at space
        simpa using congrArg List.length space
      rw [same]
      exact ⟨c, h, by simp [kept]⟩
    · obtain ⟨c', outcome, unchanged⟩ := read_space (space ▸ h)
      exact ⟨c', outcome, by simpa [LosesSign, ← space] using unchanged⟩

end Condition
end MemLogic
