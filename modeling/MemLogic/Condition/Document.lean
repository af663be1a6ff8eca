import MemLogic.Condition
import MemLogic.Json

/-! Conditions as JSON documents, with the fields in a fixed order. -/

namespace MemLogic

def Operand.document (o : Operand) : Json :=
  .object [
    ("kind".toList, .string o.kind.word),
    ("size".toList, (o.size.map fun size => Json.string size.token).getD .null),
    ("value".toList, .string o.value)]

def Requirement.document (r : Requirement) : Json :=
  .object [
    ("flag".toList, .string r.flag.letter),
    ("left".toList, r.left.document),
    ("comparator".toList, .string r.comparator.symbol),
    ("right".toList, r.right.document),
    ("hits".toList, (r.hits.map Json.number).getD .null)]

def Condition.document (c : Condition) : Json :=
  .object [
    ("groups".toList, .array (c.groups.map fun group => .array (group.map Requirement.document))),
    ("addresses".toList, .array (c.addresses.map Json.string))]

end MemLogic
