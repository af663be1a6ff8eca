import MemLogic.Requirement.Spelling

/-! Readings of a segment: the ways to cut it into a flag, one or two operands and a hit count,
with no preference among them. -/

namespace MemLogic.Requirement

/-- The pieces of a segment, the flag with its colon and the hit count with its marks. -/
structure Reading where
  flag : Text
  left : Text
  comparison : Option (Text × Text)
  hits : Text

namespace Reading

def comparisonText (r : Reading) : Text :=
  match r.comparison with
  | some (symbol, right) => symbol ++ right
  | none => []

/-- The segment that the pieces make up. -/
def text (r : Reading) : Text :=
  r.flag ++ r.left ++ r.comparisonText ++ r.hits

/-- The texts of the operands from left to right. -/
def operands (r : Reading) : List Text :=
  r.left :: (r.comparison.map Prod.snd).toList

def IsFlag (t : Text) : Prop :=
  ∃ c : Char, c.toUpper ∈ "PRABCDNOMQITZGK".toList ∧ t = [c, ':']

/-- A text with the shape of an operand, though a number in it may be too long to convert. -/
def IsOperand (t : Text) : Prop :=
  ∀ segment, Operand.read t ≠ .error (.noShape segment)

def IsComparator (t : Text) : Prop :=
  t ∈ ["<=".toList, ">=".toList, "!=".toList, "==".toList] ∨ ∃ c ∈ "<>=*/&+-^%".toList, t = [c]

def IsHitCount (t : Text) : Prop :=
  ∃ (opening closing : Char) (digits : Text),
    opening ∈ ".(".toList ∧ closing ∈ ".)]".toList ∧ digits ≠ [] ∧
      (∀ d ∈ digits, d.isDigit) ∧ t = opening :: digits ++ [closing]

/-- Each piece is of its kind; only the left operand has to be there, and it may be empty. -/
structure IsValid (r : Reading) : Prop where
  flag : r.flag = [] ∨ IsFlag r.flag
  left : IsOperand r.left
  comparison : ∀ symbol right, r.comparison = some (symbol, right) →
    IsComparator symbol ∧ IsOperand right
  hits : r.hits = [] ∨ IsHitCount r.hits

end Reading

end MemLogic.Requirement
