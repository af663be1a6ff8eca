import MemLogic.Proofs.Condition.FaithfulTable
import MemLogic.Proofs.Requirement.LineShape

/-! The shape of tables: how many lines and fences the table of a condition that was read has, and
that no value can add to them. -/

namespace MemLogic
open Text

namespace Group
open Requirement

variable {group : Group}

theorem linesFrom_append (position : Nat) (first rest : Group) :
    linesFrom position (first ++ rest) =
      linesFrom position first ++ linesFrom (position + first.length) rest := by
  induction first generalizing position with
  | nil => rfl
  | cons q qs ih =>
    rw [List.cons_append, linesFrom, linesFrom, ih, List.length_cons, Nat.add_assoc,
      Nat.add_comm 1]
    simp

/-- One line break for each line. -/
theorem count_linesFrom (read : ∀ q ∈ group, q.IsRead) (position : Nat) :
    (linesFrom position group).count '\n' = group.length := by
  induction group generalizing position with
  | nil => rfl
  | cons q qs ih =>
    obtain ⟨first, rest⟩ := List.forall_mem_cons.mp read
    rw [linesFrom, List.cons_append, List.count_cons_self, List.count_append,
      List.count_eq_zero_of_not_mem (first.line_chars position).1, ih rest, List.length_cons,
      Nat.zero_add]

theorem not_mem_linesFrom (read : ∀ q ∈ group, q.IsRead) (position : Nat) :
    '\x60' ∉ linesFrom position group := by
  induction group generalizing position with
  | nil => exact List.not_mem_nil
  | cons q qs ih =>
    obtain ⟨first, rest⟩ := List.forall_mem_cons.mp read
    simpa [linesFrom, (first.line_chars position).2] using ih rest (position + 1)

theorem starsSpaced_linesFrom (read : ∀ q ∈ group, q.IsRead) (position : Nat) :
    StarsSpaced (linesFrom position group) := by
  induction group generalizing position with
  | nil => exact starsSpaced_of_not_mem List.not_mem_nil
  | cons q qs ih =>
    obtain ⟨first, rest⟩ := List.forall_mem_cons.mp read
    have front : StarsSpaced ['\n'] := starsSpaced_of_not_mem (by decide)
    exact (front.append (first.starsSpaced_line position)).append (ih rest (position + 1))

theorem isCellText_title (position : Nat) : IsCellText (title position) := by
  unfold title
  split
  · decide
  · have words : IsCellText "Alt Group ".toList := by decide
    exact words.append (Numeral.isCellText_integer position)

/-- What stands before the lines of a group. -/
def heading (style : Style) (position : Nat) : Text :=
  match style with
  | .plain => title position ++ [':']
  | .markdown => "__**".toList ++ title position ++ "**__:".toList ++ fence

/-- What stands behind them. -/
def closing (style : Style) : Text :=
  match style with
  | .plain => []
  | .markdown => fence

theorem block_eq (style : Style) (position : Nat) (group : Group) :
    group.block style position =
      heading style position ++ (linesFrom 0 group ++ closing style) := by
  cases style <;> simp [block_plain, block_markdown, heading, closing, lines_eq]

theorem isGroupEnd_closing (style : Style) {x : Text} (hx : IsGroupEnd x) :
    IsGroupEnd (closing style ++ x) := by
  cases style with
  | plain => exact hx
  | markdown => exact .inr (.inl ⟨_, rfl⟩)

theorem count_heading (style : Style) (position : Nat) :
    (heading style position).count '\n' = 0 := by
  have title : (title position).count '\n' = 0 :=
    List.count_eq_zero_of_not_mem ((isCellText_title position).not_mem (by decide) (by decide))
  cases style <;> simp [heading, fence, title]

theorem count_block (style : Style) (read : ∀ q ∈ group, q.IsRead) (position : Nat) :
    (group.block style position).count '\n' = group.length := by
  have closing : (closing style).count '\n' = 0 := by cases style <;> decide
  rw [block_eq, List.count_append, count_heading, List.count_append, count_linesFrom read, closing,
    Nat.zero_add, Nat.add_zero]

/-- One line break for each group and for each of its lines. -/
theorem count_blocksFrom (style : Style) {groups : List Group}
    (read : ∀ group ∈ groups, ∀ q ∈ group, q.IsRead) (position : Nat) :
    (blocksFrom style position groups).count '\n' = groups.length + groups.flatten.length := by
  induction groups generalizing position with
  | nil => rfl
  | cons group groups ih =>
    obtain ⟨first, rest⟩ := List.forall_mem_cons.mp read
    rw [blocksFrom, List.cons_append, List.count_cons_self, List.count_append,
      count_block style first, ih rest, List.length_cons, List.flatten_cons, List.length_append]
    omega

/-- One fence opens behind the heading and one closes behind the lines. -/
theorem occurrences_block (read : ∀ q ∈ group, q.IsRead) (position : Nat) (x : Text) :
    occurrences fence (group.block .markdown position ++ x) = occurrences fence x + 2 := by
  have dress : '\x60' ∉ "__**".toList ++ title position ++ "**__:".toList := by
    simpa using (isCellText_title position).not_mem (d := '\x60') (by decide) (by decide)
  have unfenced := not_mem_linesFrom read 0
  calc occurrences fence (group.block .markdown position ++ x)
      = occurrences fence (("__**".toList ++ title position ++ "**__:".toList) ++
          (fence ++ (linesFrom 0 group ++ (fence ++ x)))) := by
        simp [block_eq, heading, closing]
    _ = occurrences fence (fence ++ (linesFrom 0 group ++ (fence ++ x))) :=
        occurrences_append dress
    _ = occurrences fence (linesFrom 0 group ++ (fence ++ x)) + 1 := occurrences_word_append _ _ _
    _ = occurrences fence (fence ++ x) + 1 := by rw [fence, occurrences_append unfenced]
    _ = occurrences fence x + 2 := by rw [fence, occurrences_word_append]

theorem occurrences_blocksFrom {groups : List Group}
    (read : ∀ group ∈ groups, ∀ q ∈ group, q.IsRead) (position : Nat) :
    occurrences fence (blocksFrom .markdown position groups) = 2 * groups.length := by
  induction groups generalizing position with
  | nil => rfl
  | cons group groups ih =>
    obtain ⟨first, rest⟩ := List.forall_mem_cons.mp read
    have front : '\x60' ∉ ['\n'] := by decide
    have split : blocksFrom .markdown position (group :: groups) =
        ['\n'] ++ (group.block .markdown position ++
          blocksFrom .markdown (position + 1) groups) := rfl
    rw [split, fence, occurrences_append front, ← fence, occurrences_block first, ih rest,
      List.length_cons]
    omega

/-- Without the dress of headings, no mark of a fence and no mark of bold text. -/
theorem undressed_blocksFrom {groups : List Group}
    (read : ∀ group ∈ groups, ∀ q ∈ group, q.IsRead) (position : Nat) :
    '\x60' ∉ blocksFrom .plain position groups ∧
      StarsSpaced (blocksFrom .plain position groups) := by
  induction groups generalizing position with
  | nil => exact ⟨List.not_mem_nil, starsSpaced_of_not_mem List.not_mem_nil⟩
  | cons group groups ih =>
    obtain ⟨first, rest⟩ := List.forall_mem_cons.mp read
    obtain ⟨unfenced, spaced⟩ := ih rest (position + 1)
    have title := isCellText_title position
    have front : StarsSpaced ('\n' :: heading .plain position) := by
      apply starsSpaced_of_not_mem
      simpa [heading] using title.not_mem (d := '*') (by decide) (by decide)
    have split : blocksFrom .plain position (group :: groups) =
        ('\n' :: heading .plain position) ++ linesFrom 0 group ++
          blocksFrom .plain (position + 1) groups := by
      simp [blocksFrom, block_eq, closing]
    rw [split]
    refine ⟨?_, (front.append (starsSpaced_linesFrom first 0)).append spaced⟩
    simp [heading, title.not_mem (d := '\x60') (by decide) (by decide), not_mem_linesFrom first 0,
      unfenced]

theorem blocksFrom_append (style : Style) (position : Nat) (before after : List Group) :
    blocksFrom style position (before ++ after) =
      blocksFrom style position before ++ blocksFrom style (position + before.length) after := by
  induction before generalizing position with
  | nil => rfl
  | cons group groups ih =>
    rw [List.cons_append, blocksFrom, blocksFrom, ih, List.length_cons, Nat.add_assoc,
      Nat.add_comm 1]
    simp

/-- A line as a text shows it: from a line break, with so many before it, up to the next one, a
fence or the end. -/
def IsLineOf (t : Text) (before : Nat) (line : Text) : Prop :=
  '\n' ∉ line ∧ '\x60' ∉ line ∧
    ∃ x y, t = x ++ '\n' :: (line ++ y) ∧ x.count '\n' = before ∧ IsLineEnd y

/-- A requirement stands behind the blocks before its group, a heading, and the lines before it. -/
theorem isLineOf_blocksFrom (style : Style) {before after : List Group} {first rest : Group}
    {q : Requirement} (read : ∀ group ∈ before ++ (first ++ q :: rest) :: after, ∀ q ∈ group,
      q.IsRead) (position : Nat) :
    IsLineOf (blocksFrom style position (before ++ (first ++ q :: rest) :: after))
      (before.length + before.flatten.length + 1 + first.length) (q.line first.length) := by
  have earlier : ∀ group ∈ before, ∀ q ∈ group, q.IsRead := fun group hg =>
    read group (List.mem_append_left _ hg)
  have inside : ∀ p ∈ first ++ q :: rest, p.IsRead := read _ (by simp)
  have above : ∀ p ∈ first, p.IsRead := fun p hp => inside p (List.mem_append_left _ hp)
  obtain ⟨unbroken, unfenced⟩ := (inside q (by simp)).line_chars first.length
  refine ⟨unbroken, unfenced, ?_⟩
  have ends := isGroupEnd_closing style
    (isGroupEnd_blocksFrom style (position + before.length + 1) after)
  refine ⟨blocksFrom style position before ++ '\n' :: (heading style (position + before.length) ++
    linesFrom 0 first), _, ?_, ?_, isLineEnd_linesFrom ends (first.length + 1) rest⟩
  · rw [blocksFrom_append, blocksFrom, block_eq, linesFrom_append, Nat.zero_add, linesFrom]
    simp
  · rw [List.count_append, count_blocksFrom style earlier, List.count_cons_self,
      List.count_append, count_heading, count_linesFrom above]
    omega

end Group

namespace Condition

/-- A table has a line for each group and for each requirement, and in Markdown two fences for each
group. No value adds a line break, a fence or a bold mark to it, and a line has a parenthesis only
where the requirement counts hits, around the count at its end. -/
theorem table_shape {t : Text} {c : Condition} (h : read t = .ok c) :
    (∀ style, (table style c.groups).count '\n' = c.groups.length + c.groups.flatten.length) ∧
    occurrences Group.fence (table .markdown c.groups) = 2 * c.groups.length ∧
    '\x60' ∉ table .plain c.groups ∧ ¬ "**".toList <:+: table .plain c.groups ∧
    ∀ before group after first q rest, c.groups = before ++ group :: after →
      group = first ++ q :: rest →
      (∀ style, Group.IsLineOf (table style c.groups)
        (before.length + before.flatten.length + 1 + first.length) (q.line first.length)) ∧
      q.EndsInHits (q.line first.length) := by
  have read := isRead_of_read h
  have undressed := Group.undressed_blocksFrom read 0
  simp only [Group.table_eq]
  refine ⟨fun style => Group.count_blocksFrom style read 0, Group.occurrences_blocksFrom read 0,
    undressed.1, undressed.2.two_stars_apart, ?_⟩
  rintro before _ after first q rest groups rfl
  rw [groups] at read ⊢
  have here : q.IsRead := read (first ++ q :: rest) (by simp) q (by simp)
  exact ⟨fun style => Group.isLineOf_blocksFrom style read 0, here.endsInHits first.length⟩

/-- An accumulating requirement, one with a hit target, and a group without requirements. -/
theorem table_shape_with_asterisk : ∃ c first second other,
    read "A:0xH1*2_0xH2=3.4.S".toList = .ok c ∧ c.groups = [[first, second], [other]] ∧
    first.flag.accumulates ∧ second.hits = some 4 ∧
    (∀ style, (table style c.groups).count '\n' = 5) ∧
    occurrences Group.fence (table .markdown c.groups) = 4 ∧
    '\x60' ∉ table .plain c.groups ∧ ¬ "**".toList <:+: table .plain c.groups ∧
    (∀ style, Group.IsLineOf (table style c.groups) 2 (second.line 1)) ∧
    '(' ∉ first.line 0 ∧ (second.line 1).count '(' = 1 ∧
    ∃ front, second.line 1 = front ++ "(4)".toList := by
  have outcome : read "A:0xH1*2_0xH2=3.4.S".toList = .ok
      ⟨[[⟨.addSource, ⟨.mem, some .bits8, "0x000001".toList⟩, .mul,
          ⟨.value, none, "0x000002".toList⟩, none⟩,
        ⟨.plain, ⟨.mem, some .bits8, "0x000002".toList⟩, .eq,
          ⟨.value, none, "0x000003".toList⟩, some 4⟩], [.vacant]],
        ["0x000001".toList, "0x000002".toList]⟩ := by decide +kernel
  obtain ⟨breaks, fences, unfenced, unbold, lines⟩ := table_shape outcome
  obtain ⟨_, unmarked⟩ := lines [] _ _ [] _ _ rfl rfl
  obtain ⟨shown, once, front, hits, found, ends⟩ := lines [] _ _ [_] _ _ rfl rfl
  obtain rfl : 4 = hits := Option.some.inj found
  have count : '(' :: Numeral.integer 4 ++ [')'] = "(4)".toList := by decide
  rw [List.append_assoc, count] at ends
  exact ⟨_, _, _, _, outcome, rfl, rfl, rfl, breaks, fences, unfenced, unbold, shown, unmarked,
    once, front, ends⟩

end Condition
end MemLogic
