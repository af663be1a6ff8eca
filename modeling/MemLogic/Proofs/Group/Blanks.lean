import MemLogic.Proofs.Group.Partition
import MemLogic.Text.Blank

/-! Blanks in a text: what is trimmed where they stand behind size marks alone. -/

namespace MemLogic

namespace Text

theorem isBlank_of_isAlphanum {c : Char} (h : c.isAlphanum) : isBlank c = false := by
  have low : ∀ n < 128, (Char.ofNat n).isAlphanum → isBlank (Char.ofNat n) = false := by
    decide +kernel
  have known := low c.toNat (lt_of_isAlphanum h)
  rw [Char.ofNat_toNat] at known
  exact known h

theorem dropWhile_isBlank {t : Text} (h : ∀ c ∈ t.head?, isBlank c = false) :
    t.dropWhile isBlank = t := by
  cases t with
  | nil => rfl
  | cons c t => rw [List.dropWhile_cons_of_neg (by simp [h c rfl])]

end Text

namespace Group
open Text

variable {t x y : Text} {pieces : List Text}

theorem EndsInHexMark.append_left (h : EndsInHexMark y) (x : Text) : EndsInHexMark (x ++ y) :=
  h.imp (List.suffix_append_of_suffix ·) (List.suffix_append_of_suffix ·)

theorem not_endsInHexMark_nil : ¬ EndsInHexMark [] := by decide

theorem EndsInHexMark.getLast? (h : EndsInHexMark x) : ∀ c ∈ x.getLast?, c = 'x' ∨ c = 'X' := by
  rcases h with ⟨u, rfl⟩ | ⟨u, rfl⟩
  · simp
  · simp

/-- Each blank is the space that spells out a size behind its mark. -/
def BlanksMarked (t : Text) : Prop :=
  ∀ x c y, t = x ++ c :: y → isBlank c → c = ' ' ∧ EndsInHexMark x

theorem blanksMarked_of_forall (h : ∀ c ∈ t, isBlank c = false) : BlanksMarked t := by
  rintro x c y rfl blank
  exact absurd blank (by simp [h c (by simp)])

theorem BlanksMarked.append (hx : BlanksMarked x) (hy : BlanksMarked y) :
    BlanksMarked (x ++ y) := by
  intro u c v same blank
  rcases List.append_eq_append_iff.mp same with ⟨s, rfl, rest⟩ | ⟨s, rfl, rest⟩
  · obtain ⟨space, marked⟩ := hy s c v rest blank
    exact ⟨space, marked.append_left x⟩
  · cases s with
    | nil => exact absurd (hy [] c v rest.symm blank).2 not_endsInHexMark_nil
    | cons d s =>
      obtain ⟨rfl, rfl⟩ : c = d ∧ v = s ++ y := List.cons.inj rest
      exact hx u c s rfl blank

theorem blanksMarked_intercalate {d : Char} (separator : isBlank d = false)
    (h : ∀ piece ∈ pieces, BlanksMarked piece) : BlanksMarked ([d].intercalate pieces) := by
  induction pieces with
  | nil => exact blanksMarked_of_forall (by simp)
  | cons piece pieces ih =>
    obtain ⟨first, rest⟩ := List.forall_mem_cons.mp h
    cases pieces with
    | nil => rwa [List.intercalate_singleton]
    | cons next pieces =>
      have between : BlanksMarked [d] := blanksMarked_of_forall (by simpa using separator)
      rw [List.intercalate_cons_cons]
      exact (first.append between).append (ih rest)

/-- No text begins with a size mark that stands before it. -/
theorem BlanksMarked.head? (h : BlanksMarked t) : ∀ c ∈ t.head?, isBlank c = false := by
  intro c first
  have split : t = [] ++ c :: t.tail := List.eq_cons_of_mem_head? first
  by_contra blank
  exact absurd (h [] c t.tail split (by simpa using blank)).2 not_endsInHexMark_nil

theorem BlanksMarked.trim_eq_trimEnd (h : BlanksMarked t) : trim t = trimEnd t := by
  rw [trim, dropWhile_isBlank h.head?]

theorem BlanksMarked.trim_eq_self (h : BlanksMarked t)
    (last : ∀ c ∈ t.getLast?, isBlank c = false) : trim t = t := by
  rw [h.trim_eq_trimEnd, trimEnd, dropWhile_isBlank (by simpa using last), List.reverse_reverse]

theorem BlanksMarked.trim_space (h : BlanksMarked (x ++ [' '])) : trim (x ++ [' ']) = x := by
  have marked : EndsInHexMark x := (h x ' ' [] rfl (by decide)).2
  have last : ∀ c ∈ x.getLast?, isBlank c = false := by
    intro c hc
    rcases marked.getLast? c hc with rfl | rfl <;> decide
  have space : isBlank ' ' = true := by decide
  rw [h.trim_eq_trimEnd, trimEnd, List.reverse_append, List.reverse_singleton,
    List.singleton_append, List.dropWhile_cons_of_pos space,
    dropWhile_isBlank (by simpa using last), List.reverse_reverse]

/-- At most one blank is trimmed, the space of a size at the end. -/
theorem BlanksMarked.trim_cases (h : BlanksMarked t) :
    trim t = t ∨ t = trim t ++ [' '] ∧ EndsInHexMark (trim t) := by
  rcases List.eq_nil_or_concat t with rfl | ⟨x, c, rfl⟩
  · exact .inl rfl
  · rw [List.concat_eq_append] at h ⊢
    by_cases blank : isBlank c
    · obtain ⟨rfl, marked⟩ := h x c [] rfl blank
      rw [h.trim_space]
      exact .inr ⟨rfl, marked⟩
    · exact .inl (h.trim_eq_self (by simpa using blank))

end Group
end MemLogic
