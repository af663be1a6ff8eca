import Mathlib.Data.List.Basic
import Mathlib.Data.List.Induction

/-! First occurrences: a list without what it repeats. One pass collects them, each in its place. -/

namespace MemLogic

variable {α : Type} [BEq α] [LawfulBEq α]

theorem nodup_eraseDups : (as : List α) → as.eraseDups.Nodup
  | [] => by simp
  | a :: as => by
    rw [List.eraseDups_cons, List.nodup_cons]
    exact ⟨by simp, nodup_eraseDups _⟩
termination_by as => as.length
decreasing_by exact Nat.lt_succ_of_le (List.length_filter_le _ _)

theorem eraseDups_filter (p : α → Bool) : (as : List α) →
    (as.filter p).eraseDups = as.eraseDups.filter p
  | [] => rfl
  | a :: as => by
    have rest := eraseDups_filter p (as.filter fun b => !b == a)
    rw [List.eraseDups_cons]
    cases kept : p a with
    | true =>
      rw [List.filter_cons_of_pos kept, List.filter_cons_of_pos kept, List.eraseDups_cons, ← rest,
        List.filter_filter, List.filter_filter]
      simp only [Bool.and_comm]
    | false =>
      have removed : ¬ p a = true := by simp [kept]
      rw [List.filter_cons_of_neg removed, List.filter_cons_of_neg removed, ← rest,
        List.filter_filter]
      congr 1
      apply List.filter_congr
      intro b _
      cases hb : p b with
      | false => rfl
      | true =>
        have other : b ≠ a := by
          rintro rfl
          exact removed hb
        simpa using other
termination_by as => as.length
decreasing_by exact Nat.lt_succ_of_le (List.length_filter_le _ _)

/-- First occurrences in a row of two lists are those in the first list, and those in the second of
what the first does not have. -/
theorem eraseDups_append_eq [DecidableEq α] (as bs : List α) :
    (as ++ bs).eraseDups = as.eraseDups ++ bs.eraseDups.filter (· ∉ as.eraseDups) := by
  rw [List.eraseDups_append, List.removeAll, eraseDups_filter]
  congr 1
  apply List.filter_congr
  intro b _
  simp [List.mem_eraseDups]

/-- Repeats at the end are left out. -/
theorem eraseDups_append_of_subset [DecidableEq α] {as bs : List α} (h : ∀ b ∈ bs, b ∈ as) :
    (as ++ bs).eraseDups = as.eraseDups := by
  have known : bs.eraseDups.filter (· ∉ as.eraseDups) = [] := by
    apply List.filter_eq_nil_iff.mpr
    intro b member
    have seen := List.mem_eraseDups.mpr (h b (List.mem_eraseDups.mp member))
    simpa using seen
  rw [eraseDups_append_eq, known, List.append_nil]

omit [LawfulBEq α] in
/-- Notes a value behind those seen, unless it is one of them. -/
def note (seen : List α) (a : α) : List α :=
  if seen.contains a then seen else seen ++ [a]

/-- What is seen of a list in one pass are the first occurrences in the part read so far. -/
theorem foldl_note [DecidableEq α] (as : List α) : as.foldl note [] = as.eraseDups := by
  induction as using List.reverseRecOn with
  | nil => rfl
  | append_singleton as a ih =>
    rw [List.foldl_append, ih, List.foldl_cons, List.foldl_nil, eraseDups_append_eq, note]
    by_cases known : a ∈ as
    · simp [known]
    · simp [known, List.eraseDups_cons]

/-- Of the values that the members of a list have, each is placed by the first member that has
it. -/
theorem pairwise_findIdx_eraseDups {β : Type} (f : β → Option α) (bs : List β) :
    (bs.filterMap f).eraseDups.Pairwise fun a a' =>
      bs.findIdx (f · == some a) < bs.findIdx (f · == some a') := by
  induction bs with
  | nil => simp
  | cons b bs ih =>
    cases found : f b with
    | none =>
      rw [List.filterMap_cons_none found]
      exact ih.imp fun before => by simpa [List.findIdx_cons, found] using before
    | some x =>
      have first : (b :: bs).findIdx (f · == some x) = 0 := by simp [List.findIdx_cons, found]
      have later (a : α) (other : a ≠ x) :
          (b :: bs).findIdx (f · == some a) = bs.findIdx (f · == some a) + 1 := by
        have apart : (x == a) = false := beq_eq_false_iff_ne.mpr (Ne.symm other)
        simp [List.findIdx_cons, found, apart]
      rw [List.filterMap_cons_some found, List.eraseDups_cons, eraseDups_filter, List.pairwise_cons,
        List.pairwise_filter]
      constructor
      · intro a member
        have other : a ≠ x := by simpa using (List.mem_filter.mp member).2
        rw [first, later a other]
        exact Nat.succ_pos _
      · refine ih.imp fun {a a'} before ha ha' => ?_
        rw [later a (by simpa using ha), later a' (by simpa using ha')]
        exact Nat.succ_lt_succ before

end MemLogic
