import MemLogic.Condition.Table
import MemLogic.Proofs.Operand.Values

/-! Columns: what stands in the columns of an operand can be told from a line, though long texts run
over into the next column. -/

namespace MemLogic
open Text

theorem Text.column_eq (width : Nat) (t : Text) :
    column width t = t ++ List.replicate (width - t.length) ' ' := rfl

/-- What follows a value: neither blank nor part of a value, save for a sign with a space behind
it. -/
def Text.Follows (t : Text) : Prop :=
  (∀ c ∈ t.head?, c ≠ ' ') ∧
    ∀ c r, t = c :: r → c.isAlphanum ∨ c ∈ "+-.".toList → ∃ r', r = ' ' :: r'

namespace Payload

private theorem eq_of_column_of_le {v v' y y' : Text} {width : Nat} (hv' : IsValueText v')
    (hy : Follows y) (hy' : Follows y') (shorter : v.length ≤ v'.length)
    (h : column width v ++ y = column width v' ++ y') : v = v' := by
  simp only [column_eq, List.append_assoc] at h
  obtain ⟨e, rfl, rest⟩ : ∃ e, v' = v ++ e ∧ List.replicate (width - v.length) ' ' ++ y =
      e ++ (List.replicate (width - v'.length) ' ' ++ y') := by
    rcases List.append_eq_append_iff.mp h with ⟨e, split, rest⟩ | ⟨e, split, rest⟩
    · exact ⟨e, split, rest⟩
    · have empty : e = [] := by
        rw [split, List.length_append] at shorter
        exact List.eq_nil_of_length_eq_zero (by omega)
      subst empty
      exact ⟨[], by simpa using split.symm, by simpa using rest.symm⟩
  cases e with
  | nil => rw [List.append_nil]
  | cons c e =>
    -- the longer value goes on where the shorter one is padded or followed by a comparator
    have inside : ∀ d ∈ c :: e, d ≠ ' ' := by
      rintro d hd rfl
      exact absurd (hv' _ (List.mem_append_right _ hd)) (by decide)
    cases pad : width - v.length with
    | succ n =>
      rw [pad, List.replicate_succ] at rest
      obtain ⟨same, _⟩ := List.cons.inj rest
      exact absurd same.symm (inside c List.mem_cons_self)
    | zero =>
      have unpadded : width - (v ++ c :: e).length = 0 := by
        rw [List.length_append]
        omega
      rw [pad, unpadded] at rest
      obtain ⟨r, spaced⟩ := hy.2 c (e ++ y') rest (hv' c (by simp))
      cases e with
      | nil => exact absurd rfl (hy'.1 _ (by rw [List.nil_append] at spaced; rw [spaced]; rfl))
      | cons d e =>
        obtain ⟨same, _⟩ := List.cons.inj spaced
        exact absurd same (inside d (by simp))

/-- A value ends where its padding begins or, without any, before what follows it. -/
theorem column_value_injective {v v' y y' : Text} {width : Nat} (hv : IsValueText v)
    (hv' : IsValueText v') (hy : Follows y) (hy' : Follows y')
    (h : column width v ++ y = column width v' ++ y') : v = v' ∧ y = y' := by
  have same : v = v' := by
    rcases Nat.le_total v.length v'.length with shorter | shorter
    · exact eq_of_column_of_le hv' hy hy' shorter h
    · exact (eq_of_column_of_le hv hy' hy shorter h.symm).symm
  subst same
  exact ⟨rfl, List.append_cancel_left h⟩

end Payload

namespace Operand
open Payload

theorem column_kind_injective {kind kind' : Kind} {y y' : Text}
    (h : column 6 kind.label ++ y = column 6 kind'.label ++ y') : kind = kind' ∧ y = y' := by
  have all : ∀ k ∈ Kind.all, ∀ k' ∈ Kind.all,
      (column 6 k.label).isPrefixOf (column 6 k'.label) → k = k' := by decide +kernel
  have apart : ∀ k k' : Kind, column 6 k.label <+: column 6 k'.label → k = k' := fun k k' front =>
    all k (Kind.mem_all k) k' (Kind.mem_all k') (List.isPrefixOf_iff_prefix.mpr front)
  have same : kind = kind' := by
    rcases List.append_eq_append_iff.mp h with ⟨e, longer, _⟩ | ⟨e, longer, _⟩
    · exact apart _ _ ⟨e, longer.symm⟩
    · exact (apart _ _ ⟨e, longer.symm⟩).symm
  subst same
  exact ⟨rfl, List.append_cancel_left h⟩

def sizeLabel (size : Option Size) : Text :=
  (size.map Size.label).getD []

/-- The label of one size may be the front of another's, but no value goes on like the rest of
it. -/
theorem sizeLabel_apart : ∀ s ∈ none :: Size.all.map some, ∀ s' ∈ none :: Size.all.map some,
    (column 7 (sizeLabel s)).isPrefixOf (column 7 (sizeLabel s')) → s = s' ∨
      s ≠ none ∧ 2 ≤ ((column 7 (sizeLabel s')).drop (column 7 (sizeLabel s)).length).length ∧
        ((column 7 (sizeLabel s')).drop (column 7 (sizeLabel s)).length).take 2 ∉
          ["0x".toList, "  ".toList] := by
  decide +kernel

theorem mem_sizes (size : Option Size) : size ∈ none :: Size.all.map some := by
  cases size with
  | none => exact List.mem_cons_self
  | some size => exact List.mem_cons_of_mem _ (List.mem_map_of_mem (Size.mem_all size))

private theorem eq_of_column_size_front {size size' : Option Size} {e y y' : Text}
    (hy : size ≠ none → y.take 2 ∈ ["0x".toList, "  ".toList])
    (longer : column 7 (sizeLabel size') = column 7 (sizeLabel size) ++ e) (rest : y = e ++ y') :
    size = size' := by
  have front : (column 7 (sizeLabel size)).isPrefixOf (column 7 (sizeLabel size')) :=
    List.isPrefixOf_iff_prefix.mpr ⟨e, longer.symm⟩
  have extra : (column 7 (sizeLabel size')).drop (column 7 (sizeLabel size)).length = e := by
    rw [longer, List.drop_left]
  rcases sizeLabel_apart size (mem_sizes size) size' (mem_sizes size') front with same | other
  · exact same
  · obtain ⟨sized, long, unlike⟩ := other
    rw [extra] at long unlike
    have begins := hy sized
    rw [rest, List.take_append_of_le_length long] at begins
    exact absurd begins unlike

theorem column_size_injective {size size' : Option Size} {y y' : Text}
    (hy : size ≠ none → y.take 2 ∈ ["0x".toList, "  ".toList])
    (hy' : size' ≠ none → y'.take 2 ∈ ["0x".toList, "  ".toList])
    (h : column 7 (sizeLabel size) ++ y = column 7 (sizeLabel size') ++ y') :
    size = size' ∧ y = y' := by
  have same : size = size' := by
    rcases List.append_eq_append_iff.mp h with ⟨e, longer, rest⟩ | ⟨e, longer, rest⟩
    · exact eq_of_column_size_front hy longer rest
    · exact (eq_of_column_size_front hy' longer rest).symm
  subst same
  exact ⟨rfl, List.append_cancel_left h⟩

/-- Behind a size the value column begins with the mark of an address or is blank. -/
theorem IsRead.take_column {o : Operand} (h : o.IsRead) (sized : o.size ≠ none) {width : Nat}
    (wide : 2 ≤ width) (y : Text) :
    (column width o.value ++ y).take 2 ∈ ["0x".toList, "  ".toList] := by
  rcases h.sized sized with empty | ⟨r, value⟩
  · obtain ⟨n, rfl⟩ := Nat.exists_eq_add_of_le' wide
    have blank : column (n + 2) [] = ' ' :: ' ' :: List.replicate n ' ' := by
      simp [column_eq, List.replicate_succ]
    rw [empty, blank]
    exact List.mem_cons_of_mem _ List.mem_cons_self
  · rw [value, column_eq]
    exact List.mem_cons_self

/-- An operand and its end can be told from the columns. -/
theorem columns_injective {o o' : Operand} {y y' : Text} {width : Nat} (wide : 2 ≤ width)
    (ho : o.IsRead) (ho' : o'.IsRead) (hy : Follows y) (hy' : Follows y')
    (h : o.columns width ++ y = o'.columns width ++ y') : o = o' ∧ y = y' := by
  simp only [columns, List.append_assoc] at h
  obtain ⟨kind, h⟩ := column_kind_injective h
  obtain ⟨size, h⟩ := column_size_injective (fun sized => ho.take_column sized wide y)
    (fun sized => ho'.take_column sized wide y') h
  obtain ⟨value, rest⟩ := Payload.column_value_injective ho.chars ho'.chars hy hy' h
  refine ⟨?_, rest⟩
  cases o
  cases o'
  simp_all

end Operand
end MemLogic
