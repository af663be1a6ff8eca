import MemLogic.Condition

/-! Tables: each group as a heading with one aligned line for each requirement. -/

namespace MemLogic

/-- Dress of the headings: bold and underlined with the lines in a code fence, or bare. -/
inductive Style where
  | markdown
  | plain
  deriving DecidableEq, Repr

/-- Fills a column up to its width with spaces; longer text runs over. -/
def Text.column (width : Nat) (t : Text) : Text :=
  t.rightpad width ' '

/-- Kind, size and value; only the width of the value depends on the side. -/
def Operand.columns (valueWidth : Nat) (o : Operand) : Text :=
  Text.column 6 o.kind.label ++
    Text.column 7 ((o.size.map Size.label).getD []) ++
    Text.column valueWidth o.value

namespace Requirement

def hitColumn (r : Requirement) : Text :=
  match r.hits with
  | some hits => if r.flag.accumulates then [] else '(' :: Numeral.integer hits ++ [')']
  | none => []

/-- Comparator, right operand and hit count. -/
def comparisonColumns (r : Requirement) : Text :=
  Text.column 3 r.comparator.symbol ++ r.right.columns 10 ++ r.hitColumn

/-- One line of a table; positions count from zero and are shown from one. -/
def line (position : Int) (r : Requirement) : Text :=
  (Numeral.integer (position + 1)).leftpad 2 ' ' ++ [':'] ++ Text.column 12 r.flag.label ++
    r.left.columns 9 ++ if r.usesRightSide then r.comparisonColumns else []

end Requirement

namespace Group

def title (position : Nat) : Text :=
  if position = 0 then "Core Group".toList
  else "Alt Group ".toList ++ Numeral.natural position

def fence : Text :=
  ['\x60', '\x60', '\x60']

/-- The lines of a group, each after a line break. -/
def lines (group : Group) : Text :=
  (group.mapIdx fun position r => '\n' :: r.line position).flatten

def block (style : Style) (position : Nat) (group : Group) : Text :=
  match style with
  | .markdown =>
    "__**".toList ++ title position ++ "**__:".toList ++ fence ++ lines group ++ fence
  | .plain => title position ++ [':'] ++ lines group

end Group

/-- The blocks of all groups, each after a line break. -/
def Condition.table (style : Style) (groups : List Group) : Text :=
  (groups.mapIdx fun position group => '\n' :: group.block style position).flatten

end MemLogic
