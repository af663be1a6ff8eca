import MemLogic.Condition

/-! One-line descriptions of operands, requirements and conditions, for logs. -/

namespace MemLogic

def Operand.describe (o : Operand) : Text :=
  "Operand(".toList ++ o.kind.tag ++
    (match o.size with
      | some size => ", size=".toList ++ Text.quote size.token
      | none => []) ++
    ", value=".toList ++ Text.quote o.value ++ [')']

def Requirement.describe (r : Requirement) : Text :=
  "Requirement(flag=".toList ++ r.flag.tag ++ ", left=".toList ++ r.left.describe ++
    ", cmp=".toList ++ Text.quote r.comparator.symbol ++ ", right=".toList ++ r.right.describe ++
    ", hits=".toList ++
    (match r.hits with
      | some hits => Numeral.integer hits
      | none => "None".toList) ++
    [')']

/-- Items in brackets, separated by commas. -/
def Text.bracketed (items : List Text) : Text :=
  '[' :: List.intercalate ", ".toList items ++ [']']

/-- Gives the length of each group, and the addresses. -/
def Condition.describe (c : Condition) : Text :=
  "ParseResult(groups=".toList ++ Text.bracketed (c.groups.map (Numeral.natural ·.length)) ++
    ", addresses=".toList ++ Text.bracketed (c.addresses.map Text.quote) ++ [')']

end MemLogic
