import MemLogic.Operand.Grammar
import MemLogic.Requirement.Spelling

/-! The requirement grammar as ordered choice over that of operands. What may be absent is taken
where it can be, and each operand as the operand pattern prefers; all of it may be given back for
what follows, where the reader looks for the flag and the hit count first. -/

namespace MemLogic.Requirement.Grammar
open Operand.Grammar Pattern

/-- A flag letter with its colon. -/
def flag : Pattern Text :=
  andThen (one fun c => Spelling.flagLetters.contains c.toLower) fun c =>
    andThen (one (· == ':')) fun _ => yield [c]

def comparison : Pattern (Text × Operand.Spelling) :=
  both (token Spelling.comparatorTokens) operand

/-- A left operand, and a comparator with a right one. -/
def sides : Pattern (Operand.Spelling × Option (Text × Operand.Spelling)) :=
  both operand (optional comparison)

/-- Digits between two marks, which need not match. -/
def hits : Pattern Text :=
  andThen (one fun c => c == '.' || c == '(') fun _ =>
    andThen (many1 Char.isDigit) fun digits =>
      andThen (one fun c => c == '.' || c == ')' || c == ']') fun _ => yield digits

def requirement : Pattern Spelling :=
  andThen (optional flag) fun letter =>
    andThen (both sides (optional hits)) fun body =>
      yield ⟨letter.getD [], body.1.1, body.1.2, body.2⟩

/-- The most preferred reading that takes a whole text. -/
def read? (t : Text) : Option Spelling :=
  whole? requirement t

end MemLogic.Requirement.Grammar
