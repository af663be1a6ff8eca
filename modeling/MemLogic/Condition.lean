import MemLogic.Group

/-! Conditions: the requirement groups of a text, with the memory addresses they refer to. -/

namespace MemLogic

/-- The first group is the core group, the others are alternatives. -/
structure Condition where
  groups : List Group
  addresses : List Text
  deriving DecidableEq, Repr

namespace Condition

/-- Each referenced address once, in the order of first occurrence, left operands before right
ones. -/
def addressesOf (groups : List Group) : List Text :=
  (groups.flatten.flatMap Requirement.addresses).eraseDups

def ofGroups (groups : List Group) : Condition :=
  ⟨groups, addressesOf groups⟩

/-- Reads a whole text; the first segment that fails decides the error. -/
def read (t : Text) : Except Error Condition :=
  ((Group.split t).mapM Group.read).map ofGroups

def core (c : Condition) : Except Error Group :=
  match c.groups with
  | [] => .error .noCoreGroup
  | group :: _ => .ok group

def alternatives (c : Condition) : List Group :=
  c.groups.tail

end Condition

end MemLogic
