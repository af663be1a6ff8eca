import MemLogic.Requirement.Spelling

/-! Groups of requirements: the core group and its alternatives, and how a text falls into
them. -/

namespace MemLogic

abbrev Group := List Requirement

namespace Group

/-- What the characters just before a position amount to: a zero, or a zero and an `x`. -/
inductive Lookback where
  | other
  | zero
  | hexMark
  deriving DecidableEq, Repr

def Lookback.after (before : Lookback) (c : Char) : Lookback :=
  if c = '0' then zero
  else if before = zero ∧ (c = 'x' ∨ c = 'X') then hexMark
  else other

/-- Puts a character in front of the first piece. -/
def prepend (c : Char) : List Text → List Text
  | [] => [[c]]
  | piece :: pieces => (c :: piece) :: pieces

/-- Cuts at each capital S that does not follow `0x`, given what precedes the text. -/
def cut (before : Lookback) : Text → List Text
  | [] => [[]]
  | c :: r =>
    if c = 'S' ∧ before ≠ .hexMark then [] :: cut .other r
    else prepend c (cut (before.after c) r)

/-- The group texts of a condition: at least one, empty ones kept. An S after `0x` is a size
letter and no separator. -/
def split (t : Text) : List Text :=
  cut .other t

/-- The segments of a group text, empty ones left out. -/
def segments (t : Text) : List Text :=
  (t.splitOn '_').filter (· ≠ [])

/-- Reads one group text; a group without segments holds the vacant requirement. -/
def read (t : Text) : Except Error Group :=
  match segments t with
  | [] => .ok [Requirement.vacant]
  | ss => ss.mapM Requirement.read

end Group

end MemLogic
