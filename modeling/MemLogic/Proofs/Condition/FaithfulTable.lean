import MemLogic.Proofs.Condition.Addresses
import MemLogic.Proofs.Operand.Columns
import MemLogic.Proofs.Requirement.WellFormed

/-! Tables tell apart what was read: only the right side of a requirement that does not use it is
lost. -/

namespace MemLogic
open Text

namespace Requirement

/-- The same but for a right side that neither uses. -/
structure Agree (q q' : Requirement) : Prop where
  flag : q.flag = q'.flag
  left : q.left = q'.left
  shown : q.usesRightSide = q'.usesRightSide
  comparison : q.usesRightSide →
    q.comparator = q'.comparator ∧ q.right = q'.right ∧ q.hits = q'.hits

/-- A line ends with the text, or before a line break or a fence. -/
def IsLineEnd (x : Text) : Prop :=
  ∀ c ∈ x.head?, c = '\n' ∨ c = '\x60'

theorem IsLineEnd.follows {x : Text} (h : IsLineEnd x) : Follows x := by
  constructor
  · rintro c hc rfl
    exact absurd (h _ hc) (by decide)
  · rintro c r rfl letter
    rcases h c rfl with rfl | rfl
    · exact absurd letter (by decide)
    · exact absurd letter (by decide)

theorem column_symbol (c : Comparator) : (column 3 c.symbol).length = 3 ∧
    ∃ d r, column 3 c.symbol = d :: r ∧ d ∉ [' ', '\n', '\x60'] ∧
      (d.isAlphanum ∨ d ∈ "+-.".toList → r.head? = some ' ') := by
  cases c
  all_goals exact ⟨rfl, _, _, rfl, by decide, by decide⟩

theorem follows_symbol (c : Comparator) (z : Text) : Follows (column 3 c.symbol ++ z) := by
  obtain ⟨_, d, r, column, other, spaced⟩ := column_symbol c
  rw [column, List.cons_append]
  constructor
  · rintro e he rfl
    obtain rfl : d = ' ' := by simpa using he
    exact other (by simp)
  · intro e r' split letter
    obtain ⟨rfl, rfl⟩ : d = e ∧ r ++ z = r' := List.cons.inj split
    have first := spaced letter
    cases r with
    | nil => simp at first
    | cons f r =>
      obtain rfl : f = ' ' := by simpa using first
      exact ⟨r ++ z, rfl⟩

theorem column_symbol_injective {c c' : Comparator} {z z' : Text}
    (h : column 3 c.symbol ++ z = column 3 c'.symbol ++ z') : c = c' ∧ z = z' := by
  have apart : ∀ d ∈ Comparator.all, ∀ d' ∈ Comparator.all,
      column 3 d.symbol = column 3 d'.symbol → d = d' := by decide +kernel
  obtain ⟨column, rest⟩ :=
    List.append_inj h ((column_symbol c).1.trans (column_symbol c').1.symm)
  exact ⟨apart c (Comparator.mem_all c) c' (Comparator.mem_all c') column, rest⟩

theorem column_flag_injective {f f' : Flag} {z z' : Text}
    (h : column 12 f.label ++ z = column 12 f'.label ++ z') : f = f' ∧ z = z' := by
  have width : ∀ g ∈ Flag.all, (column 12 g.label).length = 12 := by decide +kernel
  have apart : ∀ g ∈ Flag.all, ∀ g' ∈ Flag.all,
      column 12 g.label = column 12 g'.label → g = g' := by decide +kernel
  obtain ⟨column, rest⟩ :=
    List.append_inj h ((width f (Flag.mem_all f)).trans (width f' (Flag.mem_all f')).symm)
  exact ⟨apart f (Flag.mem_all f) f' (Flag.mem_all f') column, rest⟩

variable {q q' : Requirement} {x x' : Text}

theorem follows_hits (hx : IsLineEnd x) : Follows (q.hitColumn ++ x) := by
  unfold hitColumn
  split
  · split
    · exact hx.follows
    · constructor
      · rintro c hc rfl
        simp at hc
      · intro c r split letter
        obtain ⟨rfl, _⟩ := List.cons.inj split
        exact absurd letter (by decide)
  · exact hx.follows

theorem hitColumn_injective (h : q.IsRead) (h' : q'.IsRead) (flag : q.flag = q'.flag)
    (same : q.hitColumn ++ x = q'.hitColumn ++ x') : q.hits = q'.hits ∧ x = x' := by
  have hits := h.hits
  have hits' := h'.hits
  rw [← flag] at hits'
  split at hits
  · rename_i accumulates
    rw [if_pos accumulates] at hits'
    rw [hitColumn, hitColumn, hits, hits'] at same
    exact ⟨hits.trans hits'.symm, same⟩
  · rename_i counted
    rw [if_neg counted] at hits'
    obtain ⟨n, hn⟩ := hits
    obtain ⟨m, hm⟩ := hits'
    have counted' : ¬ q'.flag.accumulates = true := flag ▸ counted
    have digits : Numeral.natural n ++ ')' :: x = Numeral.natural m ++ ')' :: x' := by
      simpa [hitColumn, hn, hm, counted, counted', Numeral.integer] using same
    have stop (y : Text) : StopsAt Char.isDigit (')' :: y) := stopsAt_cons.mpr (by decide)
    obtain ⟨rfl, rest⟩ := Numeral.natural_append_injective (stop x) (stop x') digits
    exact ⟨hn.trans hm.symm, (List.cons.inj rest).2⟩

/-- What a line shows behind its left operand. -/
def shownColumns (q : Requirement) : Text :=
  if q.usesRightSide then q.comparisonColumns else []

theorem comparisonColumns_append (q : Requirement) (x : Text) : q.comparisonColumns ++ x =
    column 3 q.comparator.symbol ++ (q.right.columns 10 ++ (q.hitColumn ++ x)) := by
  simp [comparisonColumns]

theorem follows_shown (hx : IsLineEnd x) : Follows (q.shownColumns ++ x) := by
  unfold shownColumns
  split
  · rw [comparisonColumns_append]
    exact follows_symbol _ _
  · exact hx.follows

/-- A comparator is not taken for the end of a line. -/
theorem comparisonColumns_ne_end (hx : IsLineEnd x) (y : Text) :
    q.comparisonColumns ++ y ≠ x := by
  rintro rfl
  obtain ⟨_, d, r, column, other, _⟩ := column_symbol q.comparator
  have first := hx d (by rw [comparisonColumns_append, column]; rfl)
  rcases first with rfl | rfl
  · exact other (by decide)
  · exact other (by decide)

theorem comparisonColumns_injective (h : q.IsRead) (h' : q'.IsRead) (hx : IsLineEnd x)
    (hx' : IsLineEnd x') (flag : q.flag = q'.flag)
    (same : q.comparisonColumns ++ x = q'.comparisonColumns ++ x') :
    (q.comparator = q'.comparator ∧ q.right = q'.right ∧ q.hits = q'.hits) ∧ x = x' := by
  rw [comparisonColumns_append, comparisonColumns_append] at same
  obtain ⟨comparator, same⟩ := column_symbol_injective same
  obtain ⟨right, same⟩ := Operand.columns_injective (by decide) h.right h'.right
    (follows_hits hx) (follows_hits hx') same
  obtain ⟨hits, rest⟩ := hitColumn_injective h h' flag same
  exact ⟨⟨comparator, right, hits⟩, rest⟩

theorem shownColumns_injective (h : q.IsRead) (h' : q'.IsRead) (hx : IsLineEnd x)
    (hx' : IsLineEnd x') (flag : q.flag = q'.flag)
    (same : q.shownColumns ++ x = q'.shownColumns ++ x') :
    q.usesRightSide = q'.usesRightSide ∧ (q.usesRightSide →
      q.comparator = q'.comparator ∧ q.right = q'.right ∧ q.hits = q'.hits) ∧ x = x' := by
  unfold shownColumns at same
  by_cases shown : q.usesRightSide
  · rw [if_pos shown] at same
    by_cases shown' : q'.usesRightSide
    · rw [if_pos shown'] at same
      obtain ⟨comparison, rest⟩ := comparisonColumns_injective h h' hx hx' flag same
      exact ⟨shown.trans shown'.symm, fun _ => comparison, rest⟩
    · rw [if_neg shown', List.nil_append] at same
      exact absurd same (comparisonColumns_ne_end hx' x)
  · rw [if_neg shown, List.nil_append] at same
    by_cases shown' : q'.usesRightSide
    · rw [if_pos shown'] at same
      exact absurd same.symm (comparisonColumns_ne_end hx x')
    · rw [if_neg shown', List.nil_append] at same
      refine ⟨?_, fun shows => absurd shows shown, same⟩
      rw [Bool.not_eq_true] at shown shown'
      rw [shown, shown']

/-- A line tells what it shows, and where it ends. -/
theorem line_injective (h : q.IsRead) (h' : q'.IsRead) (hx : IsLineEnd x) (hx' : IsLineEnd x')
    {position : Int} (same : q.line position ++ x = q'.line position ++ x') :
    q.Agree q' ∧ x = x' := by
  have columns (p : Requirement) (y : Text) : p.line position ++ y =
      ((Numeral.integer (position + 1)).leftpad 2 ' ' ++ [':']) ++
        (column 12 p.flag.label ++ (p.left.columns 9 ++ (p.shownColumns ++ y))) := by
    simp only [line, List.append_assoc]
    rfl
  rw [columns, columns] at same
  obtain ⟨flag, same⟩ := column_flag_injective (List.append_cancel_left same)
  obtain ⟨left, same⟩ := Operand.columns_injective (by decide) h.left h'.left
    (follows_shown hx) (follows_shown hx') same
  obtain ⟨shown, comparison, rest⟩ := shownColumns_injective h h' hx hx' flag same
  exact ⟨⟨flag, left, shown, comparison⟩, rest⟩

/-- A line begins with a position. -/
theorem head_line (q : Requirement) (position : Nat) :
    ∃ c r, q.line position = c :: r ∧ (c.isDigit ∨ c = ' ') := by
  have number : Numeral.integer ((position : Int) + 1) = Numeral.natural (position + 1) := rfl
  obtain ⟨c, r, first⟩ : ∃ c r, (Numeral.natural (position + 1)).leftpad 2 ' ' = c :: r := by
    apply List.exists_cons_of_ne_nil
    simp [List.leftpad, Numeral.natural_ne_nil]
  refine ⟨c, _, by rw [line, number, first]; rfl, ?_⟩
  have member : c ∈ (Numeral.natural (position + 1)).leftpad 2 ' ' := by
    rw [first]
    exact List.mem_cons_self
  rcases List.mem_append.mp member with blank | digit
  · exact .inr (List.eq_of_mem_replicate blank)
  · exact .inl (Numeral.isDigit_natural _ c digit)

end Requirement

namespace Group
open Requirement

/-- The lines of a group from a position on. -/
def linesFrom (position : Nat) : Group → Text
  | [] => []
  | q :: qs => '\n' :: q.line position ++ linesFrom (position + 1) qs

theorem lines_eq (group : Group) : lines group = linesFrom 0 group := by
  have shifted : ∀ (qs : Group) (start : Nat),
      (qs.mapIdx fun position q => '\n' :: q.line ((position + start : Nat) : Int)).flatten =
        linesFrom start qs := by
    intro qs
    induction qs with
    | nil => exact fun _ => rfl
    | cons q qs ih =>
      intro start
      rw [List.mapIdx_cons, List.flatten_cons, linesFrom, ← ih (start + 1)]
      simp only [Nat.zero_add, Nat.add_assoc, Nat.add_comm 1 start]
  exact shifted group 0

/-- A group ends with the text, before a fence, or before the heading of another one. -/
def IsGroupEnd (x : Text) : Prop :=
  x = [] ∨ (∃ y, x = '\x60' :: y) ∨ ∃ c y, x = '\n' :: c :: y ∧ c ∈ "CA_".toList

theorem IsGroupEnd.isLineEnd {x : Text} (h : IsGroupEnd x) : IsLineEnd x := by
  intro c hc
  rcases h with rfl | ⟨y, rfl⟩ | ⟨d, y, rfl, _⟩
  · simp at hc
  · exact .inr (by simpa using hc.symm)
  · exact .inl (by simpa using hc.symm)

theorem isLineEnd_linesFrom {x : Text} (hx : IsGroupEnd x) (position : Nat) (group : Group) :
    IsLineEnd (linesFrom position group ++ x) := by
  cases group with
  | nil => exact hx.isLineEnd
  | cons q qs =>
    intro c hc
    exact .inl (by simpa [linesFrom] using hc.symm)

theorem linesFrom_ne_end {x : Text} (hx : IsGroupEnd x) (position : Nat) (q : Requirement)
    (qs : Group) (y : Text) : linesFrom position (q :: qs) ++ y ≠ x := by
  obtain ⟨c, r, line, first⟩ := q.head_line position
  rintro rfl
  rw [linesFrom, line] at hx
  rcases hx with h | ⟨z, h⟩ | ⟨d, z, h, heading⟩
  · exact absurd h (by simp)
  · exact absurd (List.cons.inj h).1 (by decide)
  · obtain ⟨rfl, _⟩ := List.cons.inj (List.cons.inj h).2
    have other : ∀ d ∈ "CA_".toList, ¬ (d.isDigit ∨ d = ' ') := by decide
    exact other _ heading first

/-- Line by line, the lines of two groups show the same. -/
theorem linesFrom_injective {group group' : Group} {x x' : Text}
    (read : ∀ q ∈ group, q.IsRead) (read' : ∀ q ∈ group', q.IsRead) (hx : IsGroupEnd x)
    (hx' : IsGroupEnd x') {position : Nat}
    (same : linesFrom position group ++ x = linesFrom position group' ++ x') :
    List.Forall₂ Agree group group' ∧ x = x' := by
  induction group generalizing group' position with
  | nil =>
    cases group' with
    | nil => exact ⟨.nil, same⟩
    | cons q' qs' => exact absurd same.symm (linesFrom_ne_end hx position q' qs' x')
  | cons q qs ih =>
    cases group' with
    | nil => exact absurd same (linesFrom_ne_end hx' position q qs x)
    | cons q' qs' =>
      obtain ⟨first, rest⟩ := List.forall_mem_cons.mp read
      obtain ⟨first', rest'⟩ := List.forall_mem_cons.mp read'
      have lines : q.line position ++ (linesFrom (position + 1) qs ++ x) =
          q'.line position ++ (linesFrom (position + 1) qs' ++ x') := by
        simpa [linesFrom] using same
      obtain ⟨agree, others⟩ := line_injective first first' (isLineEnd_linesFrom hx _ _)
        (isLineEnd_linesFrom hx' _ _) lines
      obtain ⟨agrees, ends⟩ := ih rest rest' others
      exact ⟨.cons agree agrees, ends⟩

theorem block_plain (position : Nat) (group : Group) :
    block .plain position group = title position ++ [':'] ++ lines group := rfl

theorem block_markdown (position : Nat) (group : Group) : block .markdown position group =
    "__**".toList ++ title position ++ "**__:".toList ++ fence ++ lines group ++ fence := rfl

theorem head_title (position : Nat) :
    ∃ c r, title position = c :: r ∧ c ∈ "CA_".toList := by
  unfold title
  split
  · exact ⟨'C', _, rfl, by decide⟩
  · exact ⟨'A', _, rfl, by decide⟩

/-- A block begins with a letter of its title or with the marks before it. -/
theorem head_block (style : Style) (position : Nat) (group : Group) :
    ∃ c r, group.block style position = c :: r ∧ c ∈ "CA_".toList := by
  cases style with
  | markdown => exact ⟨'_', _, rfl, by decide⟩
  | plain =>
    obtain ⟨c, r, title, heading⟩ := head_title position
    exact ⟨c, r ++ [':'] ++ lines group, by rw [block_plain, title]; rfl, heading⟩

/-- The blocks of groups from a position on. -/
def blocksFrom (style : Style) (position : Nat) : List Group → Text
  | [] => []
  | group :: groups => '\n' :: group.block style position ++ blocksFrom style (position + 1) groups

theorem table_eq (style : Style) (groups : List Group) :
    Condition.table style groups = blocksFrom style 0 groups := by
  have shifted : ∀ (gs : List Group) (start : Nat),
      (gs.mapIdx fun position g => '\n' :: g.block style (position + start)).flatten =
        blocksFrom style start gs := by
    intro gs
    induction gs with
    | nil => exact fun _ => rfl
    | cons g gs ih =>
      intro start
      rw [List.mapIdx_cons, List.flatten_cons, blocksFrom, ← ih (start + 1)]
      simp only [Nat.zero_add, Nat.add_assoc, Nat.add_comm 1 start]
  exact shifted groups 0

theorem isGroupEnd_blocksFrom (style : Style) (position : Nat) (groups : List Group) :
    IsGroupEnd (blocksFrom style position groups) := by
  cases groups with
  | nil => exact .inl rfl
  | cons group groups =>
    obtain ⟨c, r, block, heading⟩ := head_block style position group
    exact .inr (.inr ⟨c, _, by rw [blocksFrom, block]; rfl, heading⟩)

theorem block_injective {style : Style} {position : Nat} {group group' : Group} {x x' : Text}
    (read : ∀ q ∈ group, q.IsRead) (read' : ∀ q ∈ group', q.IsRead) (hx : IsGroupEnd x)
    (hx' : IsGroupEnd x')
    (same : group.block style position ++ x = group'.block style position ++ x') :
    List.Forall₂ Agree group group' ∧ x = x' := by
  cases style with
  | plain =>
    simp only [block_plain, lines_eq, List.append_assoc, List.append_cancel_left_eq] at same
    exact linesFrom_injective read read' hx hx' same
  | markdown =>
    simp only [block_markdown, lines_eq, List.append_assoc, List.append_cancel_left_eq] at same
    have fenced (y : Text) : IsGroupEnd (fence ++ y) := .inr (.inl ⟨_, rfl⟩)
    obtain ⟨agree, rest⟩ := linesFrom_injective read read' (fenced x) (fenced x') same
    exact ⟨agree, List.append_cancel_left rest⟩

/-- Block by block, equal tables show the same. -/
theorem blocksFrom_injective {style : Style} {groups groups' : List Group}
    (read : ∀ group ∈ groups, ∀ q ∈ group, q.IsRead)
    (read' : ∀ group ∈ groups', ∀ q ∈ group, q.IsRead) {position : Nat}
    (same : blocksFrom style position groups = blocksFrom style position groups') :
    List.Forall₂ (List.Forall₂ Agree) groups groups' := by
  induction groups generalizing groups' position with
  | nil =>
    cases groups' with
    | nil => exact .nil
    | cons group' groups' => exact absurd same (by simp [blocksFrom])
  | cons group groups ih =>
    cases groups' with
    | nil => exact absurd same (by simp [blocksFrom])
    | cons group' groups' =>
      obtain ⟨first, rest⟩ := List.forall_mem_cons.mp read
      obtain ⟨first', rest'⟩ := List.forall_mem_cons.mp read'
      obtain ⟨agree, others⟩ := block_injective first first' (isGroupEnd_blocksFrom style _ groups)
        (isGroupEnd_blocksFrom style _ groups') (List.cons.inj same).2
      exact .cons agree (ih rest rest' others)

end Group

namespace Condition

theorem isRead_of_read {t : Text} {c : Condition} (h : read t = .ok c) :
    ∀ group ∈ c.groups, ∀ q ∈ group, q.IsRead := by
  intro group hg q hq
  rcases exists_segment h (List.mem_flatten.mpr ⟨group, hg, hq⟩) with rfl | ⟨_, _, read⟩
  · exact Requirement.isRead_vacant
  · exact Requirement.isRead_of_read read

/-- Conditions that were read and are shown alike are alike, group by group and requirement by
requirement, in all that is shown. -/
theorem table_faithful {style : Style} {t t' : Text} {c c' : Condition} (h : read t = .ok c)
    (h' : read t' = .ok c') (same : table style c.groups = table style c'.groups) :
    List.Forall₂ (List.Forall₂ Requirement.Agree) c.groups c'.groups := by
  rw [Group.table_eq, Group.table_eq] at same
  exact Group.blocksFrom_injective (isRead_of_read h) (isRead_of_read h') same

/-- What a table hides are the right sides that accumulating requirements do not use. -/
theorem table_faithful_up_to_hidden_side :
    ∃ c c', read "A:0xH1=5".toList = .ok c ∧ read "a:0xh01>7".toList = .ok c' ∧ c ≠ c' ∧
      List.Forall₂ (List.Forall₂ Requirement.Agree) c.groups c'.groups := by
  have first : read "A:0xH1=5".toList = .ok ⟨[[⟨.addSource,
      ⟨.mem, some .bits8, "0x000001".toList⟩, .eq, ⟨.value, none, "0x000005".toList⟩, none⟩]],
      ["0x000001".toList]⟩ := by decide +kernel
  have second : read "a:0xh01>7".toList = .ok ⟨[[⟨.addSource,
      ⟨.mem, some .bits8, "0x000001".toList⟩, .gt, ⟨.value, none, "0x000007".toList⟩, none⟩]],
      ["0x000001".toList]⟩ := by decide +kernel
  have shown : table .markdown [[⟨.addSource, ⟨.mem, some .bits8, "0x000001".toList⟩, .eq,
      ⟨.value, none, "0x000005".toList⟩, none⟩]] =
        table .markdown [[⟨.addSource, ⟨.mem, some .bits8, "0x000001".toList⟩, .gt,
          ⟨.value, none, "0x000007".toList⟩, none⟩]] := by decide +kernel
  exact ⟨_, _, first, second, by decide, table_faithful first second shown⟩

end Condition
end MemLogic
