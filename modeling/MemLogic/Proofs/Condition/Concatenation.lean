import MemLogic.Proofs.Condition.FirstFailure
import MemLogic.Proofs.FirstOccurrences
import MemLogic.Proofs.Group.Appended

/-! Conditions put together: a text made of two others around a separator is read part by part, with
the groups of both and with the addresses of the second that the first does not have. -/

namespace MemLogic

namespace Group

variable {x y : Text} {g h : Group}

theorem Holds.blank (holds : Holds (segments x) g) (blank : IsBlank x) :
    g = [Requirement.vacant] := by
  rcases holds with ⟨_, vacant⟩ | ⟨present, _⟩
  · exact vacant
  · exact absurd (segments_eq_nil.mpr blank) present

theorem Holds.forall₂ (holds : Holds (segments x) g) (present : ¬ IsBlank x) :
    List.Forall₂ (fun s q => Requirement.read s = .ok q) (segments x) g := by
  rcases holds with ⟨empty, _⟩ | ⟨_, each⟩
  · exact absurd (segments_eq_nil.mp empty) present
  · exact each

/-- Around an underscore two group texts hold the merged group. -/
theorem Holds.merge (first : Holds (segments x) g) (second : Holds (segments y) h) :
    Holds (segments (x ++ '_' :: y)) (Group.merge x y g h) := by
  rw [segments_append_underscore]
  unfold Group.merge
  by_cases hx : IsBlank x
  · rw [segments_eq_nil.mpr hx, List.nil_append]
    by_cases hy : IsBlank y
    · rw [if_pos ⟨hx, hy⟩, segments_eq_nil.mpr hy]
      exact .inl ⟨rfl, rfl⟩
    · rw [if_neg fun both => hy both.2, if_pos hx, if_neg hy]
      exact second
  · have present : segments x ≠ [] := fun empty => hx (segments_eq_nil.mp empty)
    rw [if_neg fun both => hx both.1, if_neg hx]
    by_cases hy : IsBlank y
    · rw [if_pos hy, segments_eq_nil.mpr hy, List.append_nil, List.append_nil]
      exact first
    · rw [if_neg hy]
      exact .inr ⟨by simp [present], List.rel_append (first.forall₂ hx) (second.forall₂ hy)⟩

/-- A vacant requirement that is left out takes no address with it. -/
theorem addresses_merge (first : Holds (segments x) g) (second : Holds (segments y) h) :
    (Group.merge x y g h).flatMap Requirement.addresses =
      (g ++ h).flatMap Requirement.addresses := by
  have vacant : Requirement.addresses .vacant = [] := rfl
  unfold Group.merge
  by_cases hx : IsBlank x
  · by_cases hy : IsBlank y
    · rw [if_pos ⟨hx, hy⟩, first.blank hx, second.blank hy]
      simp [vacant]
    · rw [if_neg fun both => hy both.2, if_pos hx, if_neg hy, first.blank hx]
      simp [vacant]
  · rw [if_neg fun both => hx both.1, if_neg hx]
    by_cases hy : IsBlank y
    · rw [if_pos hy, second.blank hy]
      simp [vacant]
    · rw [if_neg hy]

end Group

namespace Condition

variable {t t₁ t₂ : Text} {c₁ c₂ : Condition} {e : Error}

/-- The text is read where both of its parts are, and fails as the first of them that does. -/
structure ReadsInOrder (t t₁ t₂ : Text) : Prop where
  succeeds : (∃ c, read t = .ok c) ↔ (∃ c, read t₁ = .ok c) ∧ ∃ c, read t₂ = .ok c
  fails : ∀ e, read t = .error e ↔ read t₁ = .error e ∨ (∃ c, read t₁ = .ok c) ∧ read t₂ = .error e

theorem read_eq_error_iff_mapM :
    read t = .error e ↔ (segments t).mapM Requirement.read = .error e := by
  rw [read_eq_error, mapM_eq_error]

theorem readsInOrder_of_segments (h : segments t = segments t₁ ++ segments t₂) :
    ReadsInOrder t t₁ t₂ where
  succeeds := by
    simp only [exists_read, h, List.forall_mem_append]
  fails e := by
    have first : (∃ c, read t₁ = .ok c) ↔
        ∃ qs, (segments t₁).mapM Requirement.read = .ok qs := by
      rw [exists_read, exists_mapM_ok]
    simp only [read_eq_error_iff_mapM, h, List.mapM_append, bind_eq_error, pure_ne_error, and_false,
      exists_false, or_false, first, exists_and_right]

theorem addressesOf_append (gs hs : List Group) : addressesOf (gs ++ hs) =
    addressesOf gs ++ (addressesOf hs).filter (· ∉ addressesOf gs) := by
  unfold addressesOf
  rw [List.flatten_append, List.flatMap_append, eraseDups_append_eq]

theorem read_eq_ok_iff_mapM {c : Condition} : read t = .ok c ↔
    (Group.split t).mapM Group.read = .ok c.groups ∧ c.addresses = addressesOf c.groups := by
  rw [read, map_eq_ok]
  constructor
  · rintro ⟨groups, outcome, rfl⟩
    exact ⟨outcome, rfl⟩
  · rintro ⟨outcome, addresses⟩
    refine ⟨c.groups, outcome, ?_⟩
    rw [ofGroups, ← addresses]

theorem segments_append_separator (free : ¬ Group.EndsInHexMark t₁) (t₂ : Text) :
    segments (t₁ ++ 'S' :: t₂) = segments t₁ ++ segments t₂ := by
  rw [segments, Group.split_append_separator free, List.flatMap_append]
  rfl

/-- Where a capital S separates two texts, the groups of the second follow those of the first, and
so do the addresses that are new. -/
theorem read_append_separator (free : ¬ Group.EndsInHexMark t₁) (t₂ : Text) :
    ReadsInOrder (t₁ ++ 'S' :: t₂) t₁ t₂ ∧
    ∀ c₁ c₂, read t₁ = .ok c₁ → read t₂ = .ok c₂ → read (t₁ ++ 'S' :: t₂) =
      .ok ⟨c₁.groups ++ c₂.groups,
        c₁.addresses ++ c₂.addresses.filter (· ∉ c₁.addresses)⟩ := by
  refine ⟨readsInOrder_of_segments (segments_append_separator free t₂), fun c₁ c₂ h₁ h₂ => ?_⟩
  obtain ⟨groups₁, addresses₁⟩ := read_eq_ok_iff_mapM.mp h₁
  obtain ⟨groups₂, addresses₂⟩ := read_eq_ok_iff_mapM.mp h₂
  rw [read_eq_ok_iff_mapM, Group.split_append_separator free, List.mapM_append, groups₁, groups₂]
  refine ⟨rfl, ?_⟩
  rw [addressesOf_append, ← addresses₁, ← addresses₂]

/-- The second text begins with a letter that a zero before it would make the mark of a size. -/
theorem read_append_separator_behind_zero :
    ¬ Group.EndsInHexMark "0xH1=0".toList ∧
    read "0xH1=0SxS0xH2_0xH1".toList =
      .ok ⟨[[⟨.plain, ⟨.mem, some .bits8, "0x000001".toList⟩, .eq,
          ⟨.value, none, "0x000000".toList⟩, some 0⟩],
        [⟨.plain, ⟨.value, none, "0x00000x".toList⟩, .eq, .blank, some 0⟩],
        [⟨.plain, ⟨.mem, some .bits8, "0x000002".toList⟩, .eq, .blank, some 0⟩,
          ⟨.plain, ⟨.mem, some .bits8, "0x000001".toList⟩, .eq, .blank, some 0⟩]],
        ["0x000001".toList, "0x000002".toList]⟩ := by
  have free : ¬ Group.EndsInHexMark "0xH1=0".toList := by
    unfold Group.EndsInHexMark
    decide
  have first : read "0xH1=0".toList = .ok ⟨[[⟨.plain, ⟨.mem, some .bits8, "0x000001".toList⟩, .eq,
      ⟨.value, none, "0x000000".toList⟩, some 0⟩]], ["0x000001".toList]⟩ := by decide +kernel
  have second : read "xS0xH2_0xH1".toList =
      .ok ⟨[[⟨.plain, ⟨.value, none, "0x00000x".toList⟩, .eq, .blank, some 0⟩],
        [⟨.plain, ⟨.mem, some .bits8, "0x000002".toList⟩, .eq, .blank, some 0⟩,
          ⟨.plain, ⟨.mem, some .bits8, "0x000001".toList⟩, .eq, .blank, some 0⟩]],
        ["0x000002".toList, "0x000001".toList]⟩ := by decide +kernel
  exact ⟨free, (read_append_separator free "xS0xH2_0xH1".toList).2 _ _ first second⟩

theorem segments_append_boundary (t₁ t₂ : Text) :
    segments (t₁ ++ '_' :: t₂) = segments t₁ ++ segments t₂ := by
  obtain ⟨xs, u, v, ys, first, second, whole⟩ := Group.split_append_underscore t₁ t₂
  simp [segments, first, second, whole, Group.segments_append_underscore]

/-- Where an underscore separates two texts, the last group of the first and the first group of the
second become one; a vacant requirement stands in it only where both group texts are blank. -/
theorem read_append_underscore (t₁ t₂ : Text) :
    ReadsInOrder (t₁ ++ '_' :: t₂) t₁ t₂ ∧
    ∀ c₁ c₂, read t₁ = .ok c₁ → read t₂ = .ok c₂ →
      ∃ xs x y ys gs g h hs, Group.split t₁ = xs ++ [x] ∧ Group.split t₂ = y :: ys ∧
        c₁.groups = gs ++ [g] ∧ c₂.groups = h :: hs ∧
        (Group.IsBlank x → g = [.vacant]) ∧ (Group.IsBlank y → h = [.vacant]) ∧
        read (t₁ ++ '_' :: t₂) = .ok ⟨gs ++ Group.merge x y g h :: hs,
          c₁.addresses ++ c₂.addresses.filter (· ∉ c₁.addresses)⟩ := by
  refine ⟨readsInOrder_of_segments (segments_append_boundary t₁ t₂), fun c₁ c₂ h₁ h₂ => ?_⟩
  obtain ⟨groups₁, addresses₁⟩ := read_eq_ok_iff_mapM.mp h₁
  obtain ⟨groups₂, addresses₂⟩ := read_eq_ok_iff_mapM.mp h₂
  obtain ⟨xs, x, y, ys, first, second, whole⟩ := Group.split_append_underscore t₁ t₂
  rw [first, List.mapM_append] at groups₁
  rw [second, List.mapM_cons] at groups₂
  simp only [List.mapM_cons, List.mapM_nil, bind_eq_ok, pure_eq_ok] at groups₁ groups₂
  obtain ⟨gs, front, _, ⟨g, last, _, rfl, rfl⟩, same₁⟩ := groups₁
  obtain ⟨h, head, hs, back, same₂⟩ := groups₂
  have holds := Group.read_eq_ok.mp last
  have holds' := Group.read_eq_ok.mp head
  have merged : Group.read (x ++ '_' :: y) = .ok (Group.merge x y g h) :=
    Group.read_eq_ok.mpr (holds.merge holds')
  refine ⟨xs, x, y, ys, gs, g, h, hs, first, second, same₁.symm, same₂.symm, holds.blank,
    holds'.blank, ?_⟩
  rw [read_eq_ok_iff_mapM, whole, List.mapM_append, List.mapM_cons, front, merged, back]
  refine ⟨rfl, ?_⟩
  have together : addressesOf (gs ++ Group.merge x y g h :: hs) =
      addressesOf (c₁.groups ++ c₂.groups) := by
    rw [addressesOf, addressesOf, ← same₁, ← same₂]
    simp [Group.addresses_merge holds holds']
  rw [together, addressesOf_append, ← addresses₁, ← addresses₂]

/-- A blank group text on the one side of the underscore and requirements on the other. -/
theorem read_append_underscore_beside_blank :
    ∃ xs x y ys gs g h hs, Group.split "0xH1S_".toList = xs ++ [x] ∧
      Group.split "_0xH2S0xH1".toList = y :: ys ∧
      [[⟨.plain, ⟨.mem, some .bits8, "0x000001".toList⟩, .eq, .blank, some 0⟩],
        [Requirement.vacant]] = gs ++ [g] ∧
      [[⟨.plain, ⟨.mem, some .bits8, "0x000002".toList⟩, .eq, .blank, some 0⟩],
        [⟨.plain, ⟨.mem, some .bits8, "0x000001".toList⟩, .eq, .blank, some 0⟩]] = h :: hs ∧
      (Group.IsBlank x → g = [.vacant]) ∧ (Group.IsBlank y → h = [.vacant]) ∧
      read "0xH1S___0xH2S0xH1".toList = .ok ⟨gs ++ Group.merge x y g h :: hs,
        ["0x000001".toList, "0x000002".toList]⟩ := by
  have first : read "0xH1S_".toList = .ok ⟨[[⟨.plain, ⟨.mem, some .bits8, "0x000001".toList⟩, .eq,
      .blank, some 0⟩], [.vacant]], ["0x000001".toList]⟩ := by decide +kernel
  have second : read "_0xH2S0xH1".toList = .ok ⟨[[⟨.plain,
      ⟨.mem, some .bits8, "0x000002".toList⟩, .eq, .blank, some 0⟩],
      [⟨.plain, ⟨.mem, some .bits8, "0x000001".toList⟩, .eq, .blank, some 0⟩]],
      ["0x000002".toList, "0x000001".toList]⟩ := by decide +kernel
  exact (read_append_underscore "0xH1S_".toList "_0xH2S0xH1".toList).2 _ _ first second

end Condition
end MemLogic
