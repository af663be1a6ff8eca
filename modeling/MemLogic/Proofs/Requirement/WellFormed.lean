import MemLogic.Proofs.Operand.WellFormed
import MemLogic.Proofs.Requirement.LongestReading

/-! Well-formed requirements: which operands and hit counts a requirement that was read can have. -/

namespace MemLogic.Requirement

/-- What is true of each requirement that was read. -/
structure IsRead (q : Requirement) : Prop where
  left : q.left.IsRead
  right : q.right.IsRead
  hits : if q.flag.accumulates then q.hits = none else ∃ n : Nat, q.hits = some (n : Int)

theorem isRead_vacant : IsRead vacant :=
  ⟨Operand.isRead_blank, Operand.isRead_blank, 0, rfl⟩

theorem Reading.Yields.isRead {r : Reading} {q : Requirement} (h : r.Yields q) : q.IsRead where
  left := Operand.isRead_of_read h.left
  right := by
    have comparison := h.comparison
    unfold Compares at comparison
    split at comparison
    · rw [comparison.2]
      exact Operand.isRead_blank
    · exact Operand.isRead_of_read comparison.2
  hits := by
    have counts := h.hits
    unfold Counts at counts
    split
    · rename_i accumulates
      rwa [if_pos accumulates] at counts
    · rename_i counted
      rw [if_neg counted] at counts
      exact ⟨_, counts.2⟩

theorem isRead_of_read {s : Text} {q : Requirement} (h : read s = .ok q) : q.IsRead := by
  obtain ⟨r, _, yields⟩ := Reading.exists_isLongest_of_read h
  exact yields.isRead

/-- Both operands are well-formed, and hits are counted where the flag does not accumulate. -/
structure WellFormed (q : Requirement) : Prop where
  left : q.left.WellFormed
  right : q.right.WellFormed
  hits : q.hits = none ↔ q.flag.accumulates
  counted : ∀ n ∈ q.hits, 0 ≤ n

theorem IsRead.wellFormed {q : Requirement} (h : q.IsRead) (left : q.left.WellFormed)
    (right : q.right.WellFormed) : q.WellFormed := by
  have hits := h.hits
  split at hits
  · rename_i accumulates
    exact ⟨left, right, by simp [hits, accumulates], by simp [hits]⟩
  · rename_i counted
    obtain ⟨n, same⟩ := hits
    exact ⟨left, right, by simp [same, counted], by simp [same]⟩

theorem wellFormed_vacant : WellFormed vacant :=
  isRead_vacant.wellFormed Operand.wellFormed_blank Operand.wellFormed_blank

theorem Reading.Yields.wellFormed {r : Reading} {q : Requirement} (h : r.Yields q) :
    q.WellFormed := by
  refine h.isRead.wellFormed (Operand.arises_of_read h.left).wellFormed ?_
  have comparison := h.comparison
  unfold Compares at comparison
  split at comparison
  · rw [comparison.2]
    exact Operand.wellFormed_blank
  · exact (Operand.arises_of_read comparison.2).wellFormed

theorem wellFormed_of_read {s : Text} {q : Requirement} (h : read s = .ok q) : q.WellFormed := by
  obtain ⟨r, _, yields⟩ := Reading.exists_isLongest_of_read h
  exact yields.wellFormed

end MemLogic.Requirement
