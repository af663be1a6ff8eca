import MemLogic.Proofs.Operand.Columns
import MemLogic.Proofs.Requirement.WellFormed
import MemLogic.Proofs.Text.Occurrences

/-! The shape of lines: which characters the line of a requirement that was read has, and where its
hit count stands. -/

namespace MemLogic
open Text

/-- What labels and values hold beside letters and digits, and what stands between them. -/
def Text.cellMarks : Text :=
  " +-.%:".toList

/-- The text of a column that holds no comparator. -/
def Text.IsCellText (t : Text) : Prop :=
  ∀ c ∈ t, c.isAlphanum ∨ c ∈ cellMarks

instance : DecidablePred IsCellText :=
  fun t => inferInstanceAs (Decidable (∀ c ∈ t, c.isAlphanum ∨ c ∈ cellMarks))

namespace Text.IsCellText

variable {x y : Text}

theorem append (hx : IsCellText x) (hy : IsCellText y) : IsCellText (x ++ y) := by
  intro c hc
  rcases List.mem_append.mp hc with hc | hc
  · exact hx c hc
  · exact hy c hc

theorem column {width : Nat} (h : IsCellText x) : IsCellText (column width x) := by
  intro c hc
  rw [column_eq] at hc
  rcases List.mem_append.mp hc with hc | hc
  · exact h c hc
  · rw [List.eq_of_mem_replicate hc]
    exact .inr (by decide)

theorem not_mem (h : IsCellText x) {d : Char} (other : d.isAlphanum = false)
    (outside : d ∉ cellMarks) : d ∉ x := by
  intro member
  rcases h d member with letter | mark
  · exact absurd letter (by simp [other])
  · exact outside mark

end Text.IsCellText

namespace Operand

theorem isCellText_kind (kind : Kind) : IsCellText kind.label := by
  have all : ∀ k ∈ Kind.all, IsCellText k.label := by decide
  exact all kind (Kind.mem_all kind)

theorem isCellText_size (size : Option Size) : IsCellText (sizeLabel size) := by
  have all : ∀ s ∈ none :: Size.all.map some, IsCellText (sizeLabel s) := by decide
  exact all size (mem_sizes size)

theorem IsRead.isCellText_value {o : Operand} (h : o.IsRead) : IsCellText o.value := by
  have marks : ∀ c ∈ "+-.".toList, c ∈ cellMarks := by decide
  exact fun c hc => (h.chars c hc).imp_right (marks c)

theorem IsRead.isCellText_columns {o : Operand} (h : o.IsRead) (width : Nat) :
    IsCellText (o.columns width) :=
  ((isCellText_kind o.kind).column.append (isCellText_size o.size).column).append
    h.isCellText_value.column

end Operand

namespace Numeral

theorem isCellText_integer (z : Int) : IsCellText (integer z) := by
  have digits (n : Nat) : IsCellText (natural n) := fun c hc =>
    .inl (by simp [Char.isAlphanum, isDigit_natural n c hc])
  cases z with
  | ofNat n => exact digits n
  | negSucc n =>
    intro c hc
    rcases List.mem_cons.mp hc with rfl | hc
    · exact .inr (by decide)
    · exact digits _ c hc

end Numeral

namespace Requirement

/-- Position, flag and left operand. -/
def leftColumns (position : Int) (q : Requirement) : Text :=
  (Numeral.integer (position + 1)).leftpad 2 ' ' ++ [':'] ++ column 12 q.flag.label ++
    q.left.columns 9

/-- Comparator and right operand, where they are used. -/
def rightColumns (q : Requirement) : Text :=
  if q.usesRightSide then column 3 q.comparator.symbol ++ q.right.columns 10 else []

variable {q : Requirement}

theorem IsRead.hitColumn_eq (h : q.IsRead) : q.hitColumn =
    if q.flag.accumulates then [] else '(' :: Numeral.integer (q.hits.getD 0) ++ [')'] := by
  have hits := h.hits
  split at hits
  · rename_i accumulates
    simp [hitColumn, hits, accumulates]
  · rename_i counted
    obtain ⟨n, same⟩ := hits
    simp [hitColumn, same, counted]

/-- Hits are counted only where the right side is used. -/
theorem IsRead.line_eq (h : q.IsRead) (position : Int) :
    q.line position = q.leftColumns position ++ q.rightColumns ++ q.hitColumn := by
  by_cases shown : q.usesRightSide
  · simp [line, leftColumns, rightColumns, comparisonColumns, shown]
  · have accumulates : q.flag.accumulates := by
      rw [usesRightSide, Bool.or_eq_true, not_or] at shown
      simpa using shown.1
    simp [line, leftColumns, rightColumns, shown, h.hitColumn_eq, accumulates]

theorem IsRead.isCellText_leftColumns (h : q.IsRead) (position : Int) :
    IsCellText (q.leftColumns position) := by
  have number : IsCellText ((Numeral.integer (position + 1)).leftpad 2 ' ') := by
    intro c hc
    rcases List.mem_append.mp hc with hc | hc
    · rw [List.eq_of_mem_replicate hc]
      exact .inr (by decide)
    · exact Numeral.isCellText_integer _ c hc
  have colon : IsCellText [':'] := by decide
  have flag : IsCellText q.flag.label := by
    have all : ∀ f ∈ Flag.all, IsCellText f.label := by decide
    exact all q.flag (Flag.mem_all q.flag)
  exact ((number.append colon).append flag.column).append (h.left.isCellText_columns 9)

/-- Padding follows the asterisk of the multiplication. -/
theorem starsSpaced_symbol (c : Comparator) : StarsSpaced (column 3 c.symbol) := by
  by_cases star : c = .mul
  · subst star
    exact starsSpaced_star (by decide)
  · have all : ∀ c ∈ Comparator.all, c ≠ .mul → '*' ∉ column 3 c.symbol := by decide
    exact starsSpaced_of_not_mem (all c (Comparator.mem_all c) star)

theorem symbol_chars (c : Comparator) : ∀ d ∈ "\n\x60()".toList, d ∉ column 3 c.symbol := by
  have all : ∀ c ∈ Comparator.all, ∀ d ∈ "\n\x60()".toList, d ∉ column 3 c.symbol := by decide
  exact all c (Comparator.mem_all c)

/-- Neither a line break, a fence nor a parenthesis can be in front of the hit count. -/
theorem IsRead.front_chars (h : q.IsRead) (position : Int) :
    ∀ d ∈ "\n\x60()".toList, d ∉ q.leftColumns position ++ q.rightColumns := by
  have outside : ∀ d ∈ "\n\x60()".toList, d.isAlphanum = false ∧ d ∉ cellMarks := by decide
  intro d hd member
  obtain ⟨other, unmarked⟩ := outside d hd
  rcases List.mem_append.mp member with left | right
  · exact (h.isCellText_leftColumns position).not_mem other unmarked left
  · unfold rightColumns at right
    split at right
    · rcases List.mem_append.mp right with symbol | right
      · exact symbol_chars q.comparator d hd symbol
      · exact (h.right.isCellText_columns 10).not_mem other unmarked right
    · exact List.not_mem_nil right

theorem IsRead.hitColumn_chars (h : q.IsRead) : ∀ d ∈ "\n\x60*".toList, d ∉ q.hitColumn := by
  have outside : ∀ d ∈ "\n\x60*".toList, d.isAlphanum = false ∧ d ∉ cellMarks ∧
      d ≠ '(' ∧ d ≠ ')' := by decide
  intro d hd
  obtain ⟨other, unmarked, opening, closing⟩ := outside d hd
  have number := (Numeral.isCellText_integer (q.hits.getD 0)).not_mem other unmarked
  rw [h.hitColumn_eq]
  split
  · exact List.not_mem_nil
  · simp [opening, closing, number]

/-- A line holds neither a line break nor the mark of a fence. -/
theorem IsRead.line_chars (h : q.IsRead) (position : Int) :
    '\n' ∉ q.line position ∧ '\x60' ∉ q.line position := by
  have absent : ∀ d ∈ ['\n', '\x60'], d ∉ q.line position := by
    have known : ∀ d ∈ ['\n', '\x60'], d ∈ "\n\x60()".toList ∧ d ∈ "\n\x60*".toList := by decide
    intro d hd
    rw [h.line_eq, List.mem_append, not_or]
    exact ⟨h.front_chars position d (known d hd).1, h.hitColumn_chars d (known d hd).2⟩
  exact ⟨absent _ (by decide), absent _ (by decide)⟩

theorem IsRead.starsSpaced_line (h : q.IsRead) (position : Int) :
    StarsSpaced (q.line position) := by
  have cells {x : Text} (cell : IsCellText x) : StarsSpaced x :=
    starsSpaced_of_not_mem (cell.not_mem (by decide) (by decide))
  have right : StarsSpaced q.rightColumns := by
    unfold rightColumns
    split
    · exact (starsSpaced_symbol _).append (cells (h.right.isCellText_columns 10))
    · exact starsSpaced_of_not_mem List.not_mem_nil
  rw [h.line_eq]
  exact ((cells (h.isCellText_leftColumns position)).append right).append
    (starsSpaced_of_not_mem (h.hitColumn_chars _ (by decide)))

/-- The hit count in parentheses ends the line where hits are counted, and no other parenthesis is
opened. -/
def EndsInHits (q : Requirement) (line : Text) : Prop :=
  if q.flag.accumulates then '(' ∉ line
  else line.count '(' = 1 ∧
    ∃ front hits, q.hits = some hits ∧ line = front ++ '(' :: Numeral.integer hits ++ [')']

theorem IsRead.endsInHits (h : q.IsRead) (position : Int) : q.EndsInHits (q.line position) := by
  have front := h.front_chars position '(' (by decide)
  have hits := h.hits
  rw [h.line_eq, h.hitColumn_eq, EndsInHits]
  split
  · rwa [List.append_nil]
  · rename_i counted
    rw [if_neg counted] at hits
    obtain ⟨n, same⟩ := hits
    have number : '(' ∉ Numeral.integer n :=
      (Numeral.isCellText_integer n).not_mem (by decide) (by decide)
    refine ⟨?_, q.leftColumns position ++ q.rightColumns, n, same, by simp [same]⟩
    rw [List.count_append, List.count_eq_zero_of_not_mem front, same, Option.getD_some,
      List.cons_append, List.count_cons_self, List.count_append,
      List.count_eq_zero_of_not_mem number]
    decide

end Requirement
end MemLogic
