import MemLogic.Comparator
import MemLogic.Flag
import MemLogic.Operand

/-! Requirements: two operands compared or accumulated under a flag. -/

namespace MemLogic

/-- The hit count says on how many frames the requirement has to hold; accumulating requirements
are read without one. -/
structure Requirement where
  flag : Flag
  left : Operand
  comparator : Comparator
  right : Operand
  hits : Option Int
  deriving DecidableEq, Repr

namespace Requirement

/-- Stands in a group that has no requirement, so that the group keeps its number. -/
def vacant : Requirement :=
  ⟨.plain, .blank, .eq, .blank, some 0⟩

/-- An accumulating flag leaves the right side unused unless an operator applies it. -/
def usesRightSide (r : Requirement) : Bool :=
  !r.flag.accumulates || r.comparator.isOperator

/-- Addresses of the left operand and then of the right one. -/
def addresses (r : Requirement) : List Text :=
  r.left.address?.toList ++ r.right.address?.toList

end Requirement

end MemLogic
