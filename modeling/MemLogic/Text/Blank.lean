import MemLogic.Text

/-! White space of every script, and texts without it at their ends. -/

namespace MemLogic.Text

/-- White space in the wide sense: spaces, line and paragraph breaks, and the four ASCII
information separators. The zero-width space and the byte order mark are not blank. -/
def isBlank (c : Char) : Bool :=
  let n := c.toNat
  (0x09 ≤ n && n ≤ 0x0d) || (0x1c ≤ n && n ≤ 0x20) || n == 0x85 || n == 0xa0 || n == 0x1680 ||
    (0x2000 ≤ n && n ≤ 0x200a) || n == 0x2028 || n == 0x2029 || n == 0x202f || n == 0x205f ||
    n == 0x3000

theorem isBlank_of_isWhitespace {c : Char} (h : c.isWhitespace) : isBlank c := by
  simp only [Char.isWhitespace, Bool.or_eq_true, decide_eq_true_eq] at h
  rcases h with ((rfl | rfl) | rfl) | rfl <;> decide

def trimEnd (t : Text) : Text :=
  (t.reverse.dropWhile isBlank).reverse

/-- Removes blanks from both ends and none from within. -/
def trim (t : Text) : Text :=
  trimEnd (t.dropWhile isBlank)

end MemLogic.Text
