import MemLogic.Proofs.Condition.FirstFailure
import MemLogic.Proofs.Group.Joined
import MemLogic.Proofs.Requirement.Denotation

/-! Well-formed conditions: groups of well-formed requirements, joined by their separators, are read
as the requirements they stand for. -/

namespace MemLogic
open Text

namespace Operand
open Spelling

theorem closed_of_hex {t : Text} (h : ∀ c ∈ t, isHexDigit c) : Group.Closed t := by
  apply Group.closed_of_lower
  intro d member
  obtain ⟨c, hc, rfl⟩ := List.mem_map.mp member
  have apart : ∀ d ∈ "0123456789abcdef".toList, d ∉ ['s', 'x'] := by decide
  exact apart _ (by simpa [isHexDigit] using h c hc)

theorem closed_of_digits {t : Text} (h : ∀ c ∈ t, c.isDigit ∨ c ∈ "+-.()]".toList) :
    Group.Closed t := by
  have letterless : ∀ c ∈ t, c.isAlpha = false := by
    intro c hc
    have marks : ∀ d ∈ "+-.()]".toList, d.isAlpha = false := by decide
    exact (h c hc).elim isAlpha_of_isDigit (marks c)
  apply Group.closed_of_lower
  rw [lower_of_letterless letterless]
  intro c hc member
  have letters : ∀ d ∈ ['s', 'x'], d.isAlpha := by decide
  exact absurd (letters c member) (by simp [letterless c hc])

theorem closed_of_number {p : Text} (h : Payload.IsNumber p) : Group.Closed p := by
  apply closed_of_digits
  intro c hc
  rcases h.chars c hc with digit | rfl | rfl | rfl
  · exact .inl digit
  all_goals exact .inr (by decide)

theorem closed_of_mark {m : Option Modifier} {x : Text} (h : IsMark m x) : Group.Closed x := by
  apply Group.closed_of_lower
  cases m with
  | none =>
    rw [show x = [] from h]
    simp
  | some m =>
    obtain ⟨c, hc, rfl⟩ := h
    have apart : ∀ d ∈ markLetters, d ∉ ['s', 'x'] := by decide
    simpa using apart _ (toLower_mem_of_ofChar? hc)

/-- The one token with an S in it has `0x` before it. -/
theorem uncut_of_token {k : Text} (h : lower k ∈ sizeTokens) : Group.Uncut .other k := by
  by_cases member : 'S' ∈ k
  · have only : ∀ v ∈ sizeTokens, 's' ∈ v → v = ['0', 'x', 's'] := by decide
    have bit := only _ h (List.mem_map_of_mem (f := Char.toLower) member)
    obtain ⟨a, b, c, rfl⟩ : ∃ a b c, k = [a, b, c] := by
      have three := congrArg List.length bit
      exact List.length_eq_three.mp (by simpa using three)
    simp only [lower_cons, lower_nil, List.cons.injEq, and_true] at bit
    obtain ⟨zero, mark, _⟩ := bit
    have zero' : a = '0' := (toLower_eq_iff (by decide) a).mp zero
    have mark' : b = 'x' ∨ b = 'X' := by
      refine forall_of_ascii (fun b => b.toLower = 'x' → b = 'x' ∨ b = 'X') (by decide +kernel) ?_
        b mark
      intro c high low
      rw [toLower_of_le high] at low
      exact .inl low
    subst zero'
    rcases mark' with rfl | rfl
    · simp [Group.Uncut, Group.Lookback.after]
    · simp [Group.Uncut, Group.Lookback.after]
  · exact Group.uncut_of_not_mem member

theorem closed_of_uncut {t : Text} (uncut : 'S' ∉ t) (last : ∀ c ∈ t, c.toLower ≠ 'x') :
    Group.Closed t := by
  refine ⟨Group.uncut_of_not_mem uncut, fun c hc => ?_⟩
  have other := last c (List.mem_of_getLast? hc)
  constructor
  · rintro rfl
    exact other (by decide)
  · rintro rfl
    exact other (by decide)

theorem Denotes.closed {t : Text} {o : Operand} (h : Denotes t o) : Group.Closed t := by
  cases h with
  | @memory m mark token digits size marked memory sized float nonempty hex =>
    have whole := closed_of_hex hex
    refine (closed_of_mark marked).append ⟨(uncut_of_token (lower_token_known sized).1).append
      whole.1, ?_⟩
    intro c last
    rw [List.getLast?_append_of_ne_nil _ nonempty] at last
    exact whole.2 c last
  | @decimal mark sign digits marked signed nonempty digit short =>
    have front : Group.Closed mark := by
      apply Group.closed_of_lower
      rcases marked with rfl | h
      · simp
      · rw [h]
        decide
    exact front.append (closed_of_number (Payload.isNumber_decimal signed nonempty digit))
  | hexadecimal marked nonempty hex =>
    exact (Group.closed_of_lower (marked ▸ by decide)).append (closed_of_hex hex)
  | verbatim number plain => exact closed_of_number number
  | float marked number =>
    exact (Group.closed_of_lower (marked ▸ by decide)).append (closed_of_number number)
  | constant constant uncut =>
    have all : ∀ v ∈ Payload.constantWords, 'x' ∉ v := by decide
    refine closed_of_uncut uncut fun c hc low => ?_
    exact all _ (lower_mem_constantWords constant) (low ▸ List.mem_map_of_mem hc)
  | @recalled w word =>
    have name : Group.Closed w := Group.closed_of_lower (word ▸ by decide)
    have opened : Group.Closed ['\x7b'] := Group.closed_of_lower (by decide)
    exact (opened.append name).append (Group.closed_of_lower (by decide))
  | @named name nonempty word other uncut =>
    have inner : Group.Uncut .other ('\x7b' :: name) :=
      Group.uncut_of_not_mem (by simp [uncut])
    have brace : Group.Closed ['\x7d'] := Group.closed_of_lower (by decide)
    refine ⟨inner.append brace.1, ?_⟩
    intro c last
    rw [List.getLast?_append_of_ne_nil _ (List.cons_ne_nil _ _)] at last
    exact brace.2 c last

end Operand

namespace Requirement.Reading
open Spelling

variable {r : Reading} {q : Requirement}

theorem closed_of_flag {f : Text} (h : f = [] ∨ IsFlag f) : Group.Closed f := by
  apply Group.closed_of_lower
  rcases h with rfl | ⟨c, letter, rfl⟩
  · simp
  · have apart : ∀ d ∈ flagLetters, d ∉ ['s', 'x'] := by decide
    have member := (flagLetter_iff c).mpr letter
    have first := apart c.toLower (by simpa using member)
    have colon : ':'.toLower ∉ ['s', 'x'] := by decide
    intro d hd
    simp only [lower_cons, lower_nil, List.mem_cons, List.not_mem_nil, or_false] at hd
    rcases hd with rfl | rfl
    · exact first
    · exact colon

theorem closed_of_hits {t : Text} (h : t = [] ∨ IsHitCount t) : Group.Closed t := by
  apply Operand.closed_of_digits
  rcases h with rfl | h
  · simp
  · obtain ⟨digits, hit⟩ := (isHitCount_iff t).mp h
    have marks : ∀ d ∈ ".()]".toList, d ∈ "+-.()]".toList := by decide
    exact fun c hc => (hit.chars c hc).imp_right (marks c)

theorem Denotes.closed (h : r.Denotes q) : Group.Closed r.text := by
  have comparison : Group.Closed r.comparisonText := by
    have pieces := h.comparison
    unfold comparisonText
    split
    · rename_i symbol right same
      rw [same] at pieces
      obtain ⟨comparator, _, operand⟩ := pieces
      have tokens : ∀ k ∈ comparatorTokens, ∀ c ∈ lower k, c ∉ ['s', 'x'] := by decide
      have front := Group.closed_of_lower (tokens symbol ((isComparator_iff symbol).mp comparator))
      exact front.append operand.closed
    · exact Group.closed_of_lower (t := []) (by simp)
  exact (((closed_of_flag h.isValid.flag).append h.left.closed).append comparison).append
    (closed_of_hits h.hits)

/-- No piece of a requirement holds an underscore. -/
theorem IsValid.separated (h : r.IsValid) : '_' ∉ r.text := by
  obtain ⟨s, spelled⟩ := (isValid_iff r).mp h
  have sides := spelled.sides.not_mem (d := '_') (by decide) (by decide)
  have flag : '_' ∉ r.flag := by
    rcases h.flag with empty | ⟨c, letter, same⟩
    · simp [empty]
    · rw [same]
      simp only [List.mem_cons, List.not_mem_nil, or_false, not_or]
      refine ⟨?_, by decide⟩
      rintro rfl
      exact absurd letter (by decide)
  have hits : '_' ∉ r.hits := by
    rcases spelled.hits with ⟨empty, _⟩ | ⟨digits, hit, _⟩
    · simp [empty]
    · exact fun member => absurd (hit.chars _ member) (by decide)
  rw [text, List.append_assoc r.flag, List.mem_append, List.mem_append, not_or, not_or]
  exact ⟨⟨flag, sides⟩, hits⟩

theorem Denotes.text_ne_nil (h : r.Denotes q) : r.text ≠ [] := by
  have left : r.left ≠ [] := by
    intro empty
    have front := h.left.splitFront_ne_nil
    rw [empty] at front
    exact front rfl
  simp [text, left]

end Requirement.Reading

namespace Condition
open Requirement

/-- Groups of requirements, the requirements joined by underscores and the groups by a capital S. -/
def joined (groups : List (List Reading)) : Text :=
  ['S'].intercalate (groups.map fun group => ['_'].intercalate (group.map Reading.text))

/-- An empty group holds the vacant requirement. -/
def filled (group : Group) : Group :=
  if group = [] then [vacant] else group

theorem addressesOf_filled (groups : List Group) :
    addressesOf (groups.map filled) = addressesOf groups := by
  have same : (groups.map filled).flatten.flatMap Requirement.addresses =
      groups.flatten.flatMap Requirement.addresses := by
    induction groups with
    | nil => rfl
    | cons group groups ih =>
      have first : (filled group).flatMap Requirement.addresses =
          group.flatMap Requirement.addresses := by
        unfold filled
        split
        · rename_i empty
          rw [empty]
          rfl
        · rfl
      simp only [List.map_cons, List.flatten_cons, List.flatMap_append, ih, first]
  rw [addressesOf, addressesOf, same]

private theorem exists_of_forall₂ {α β : Type} {R : α → β → Prop} {as : List α} {bs : List β}
    (h : List.Forall₂ R as bs) : ∀ a ∈ as, ∃ b, R a b :=
  fun a member => (exists_mem_right h a member).imp fun _ => And.right

theorem read_group {group : List Reading} {values : Group}
    (denotes : List.Forall₂ Reading.Denotes group values) :
    Group.read (['_'].intercalate (group.map Reading.text)) = .ok (filled values) := by
  have each := exists_of_forall₂ denotes
  have segments : Group.segments (['_'].intercalate (group.map Reading.text)) =
      group.map Reading.text := by
    apply Group.segments_intercalate
    · intro s member
      obtain ⟨r, hr, rfl⟩ := List.mem_map.mp member
      obtain ⟨q, h⟩ := each r hr
      exact h.isValid.separated
    · intro s member
      obtain ⟨r, hr, rfl⟩ := List.mem_map.mp member
      obtain ⟨q, h⟩ := each r hr
      exact h.text_ne_nil
  rw [Group.read_eq_ok, segments]
  cases denotes with
  | nil => exact .inl ⟨rfl, rfl⟩
  | cons first rest =>
    refine .inr ⟨List.cons_ne_nil _ _, ?_⟩
    rw [filled, if_neg (List.cons_ne_nil _ _), List.forall₂_map_left_iff]
    exact (List.Forall₂.cons first rest).imp fun _ _ h => h.read_eq_ok

/-- A text made of well-formed requirements is read as the groups of what they stand for, with each
address once in the order of first occurrence. -/
theorem read_joined {groups : List (List Reading)} {values : List Group} (nonempty : groups ≠ [])
    (denotes : List.Forall₂ (List.Forall₂ Reading.Denotes) groups values) :
    read (joined groups) =
      .ok ⟨values.map filled, (values.flatten.flatMap Requirement.addresses).eraseDups⟩ := by
  have pieces : Group.split (joined groups) =
      groups.map fun group => ['_'].intercalate (group.map Reading.text) := by
    apply Group.split_intercalate (by simpa using nonempty)
    intro piece member
    obtain ⟨group, hg, rfl⟩ := List.mem_map.mp member
    apply Group.closed_intercalate
    intro s hs
    obtain ⟨r, hr, rfl⟩ := List.mem_map.mp hs
    obtain ⟨_, each⟩ := exists_of_forall₂ denotes group hg
    obtain ⟨q, h⟩ := exists_of_forall₂ each r hr
    exact h.closed
  have outcome : (Group.split (joined groups)).mapM Group.read = .ok (values.map filled) := by
    rw [pieces, mapM_eq_ok, List.forall₂_map_left_iff, List.forall₂_map_right_iff]
    exact denotes.imp fun _ _ h => read_group h
  rw [read, outcome]
  show Except.ok (ofGroups (values.map filled)) = _
  rw [ofGroups, addressesOf_filled]
  rfl

/-- Both separators, an empty group, an S that is none, and a dot on either side of a number. -/
theorem read_joined_around_empty_group :
    joined [[⟨"R:".toList, "0xH1234".toList, some ("=".toList, "5".toList), ".10.".toList⟩,
        ⟨[], "d0xS00ab".toList, some (">=".toList, "p0xS00ab".toList), []⟩], [],
      [⟨"a:".toList, "fF00FF".toList, some ("*".toList, "f-1.5".toList), "(3)".toList⟩]] =
        "R:0xH1234=5.10._d0xS00ab>=p0xS00abSSa:fF00FF*f-1.5(3)".toList ∧
    read "R:0xH1234=5.10._d0xS00ab>=p0xS00abSSa:fF00FF*f-1.5(3)".toList =
      .ok ⟨[[⟨.resetIf, ⟨.mem, some .bits8, "0x001234".toList⟩, .eq,
            ⟨.value, none, "0x000005".toList⟩, some 10⟩,
          ⟨.plain, ⟨.delta, some .bit6, "0x0000ab".toList⟩, .ge,
            ⟨.prior, some .bit6, "0x0000ab".toList⟩, some 0⟩],
        [vacant],
        [⟨.addSource, ⟨.float, some .float, "0x0000FF".toList⟩, .mul,
          ⟨.float, none, "-1.5".toList⟩, none⟩]],
        ["0x001234".toList, "0x0000ab".toList, "0x0000FF".toList]⟩ := by
  have first : Reading.Denotes
      ⟨"R:".toList, "0xH1234".toList, some ("=".toList, "5".toList), ".10.".toList⟩
      ⟨.resetIf, ⟨.mem, some .bits8, "0x001234".toList⟩, .eq,
        ⟨.value, none, "0x000005".toList⟩, some 10⟩ := by
    refine ⟨.inr ⟨'R', by decide, by decide⟩, ?_, ⟨.inr ⟨'=', by decide, by decide⟩, by decide, ?_⟩,
      .inr ⟨'.', '.', "10".toList, by decide⟩, by decide, by decide⟩
    · exact @Operand.Denotes.memory none [] "0xH".toList "1234".toList .bits8 rfl (by decide)
        (.inl (by decide)) (by decide) (by decide) (by decide)
    · exact @Operand.Denotes.decimal [] [] "5".toList (.inl rfl) (.inl rfl) (by decide) (by decide)
        (by decide)
  have second : Reading.Denotes
      ⟨[], "d0xS00ab".toList, some (">=".toList, "p0xS00ab".toList), []⟩
      ⟨.plain, ⟨.delta, some .bit6, "0x0000ab".toList⟩, .ge,
        ⟨.prior, some .bit6, "0x0000ab".toList⟩, some 0⟩ := by
    refine ⟨.inl ⟨rfl, rfl⟩, ?_, ⟨.inl (by decide), by decide, ?_⟩, .inl rfl, by decide, by decide⟩
    · exact @Operand.Denotes.memory (some .delta) "d".toList "0xS".toList "00ab".toList .bit6
        ⟨'d', rfl, rfl⟩ (by decide) (.inl (by decide)) (by decide) (by decide) (by decide)
    · exact @Operand.Denotes.memory (some .prior) "p".toList "0xS".toList "00ab".toList .bit6
        ⟨'p', rfl, rfl⟩ (by decide) (.inl (by decide)) (by decide) (by decide) (by decide)
  have third : Reading.Denotes
      ⟨"a:".toList, "fF00FF".toList, some ("*".toList, "f-1.5".toList), "(3)".toList⟩
      ⟨.addSource, ⟨.float, some .float, "0x0000FF".toList⟩, .mul,
        ⟨.float, none, "-1.5".toList⟩, none⟩ := by
    refine ⟨.inr ⟨'a', by decide, by decide⟩, ?_, ⟨.inr ⟨'*', by decide, by decide⟩, by decide, ?_⟩,
      .inr ⟨'(', ')', "3".toList, by decide⟩, by decide, by decide⟩
    · exact @Operand.Denotes.memory none [] "fF".toList "00FF".toList .float rfl (by decide)
        (.inl (by decide)) (by decide) (by decide) (by decide)
    · exact @Operand.Denotes.float "f".toList "-1.5".toList (by decide)
        ⟨['-'], ['1'], ['.', '5'], by decide, .inr (.inr rfl), by decide,
          .inr ⟨['5'], rfl, by decide⟩, by decide⟩
  exact ⟨by decide, read_joined (List.cons_ne_nil _ _)
    (.cons (.cons first (.cons second .nil)) (.cons .nil (.cons (.cons third .nil) .nil)))⟩

end Condition
end MemLogic
