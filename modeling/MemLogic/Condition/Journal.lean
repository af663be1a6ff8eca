import MemLogic.Condition.Description

/-! The log of reading a condition: what is noted about its segments and groups, in order. -/

namespace MemLogic.Condition

/-- A noted event; only an unreadable segment is a warning. -/
inductive Event where
  | emptyGroup (text : Text)
  | requirement (segment : Text) (r : Requirement)
  | noShape (segment : Text)
  | finished (groups requirements addresses : Nat)
  deriving DecidableEq, Repr

namespace Event

def isWarning : Event → Bool
  | noShape _ => true
  | _ => false

/-- A line of the log, with the level and the part of the program that notes the event. -/
def line : Event → Text
  | emptyGroup text =>
    "DEBUG memaddr_parser.parser.requirement_parser: Empty group ".toList ++ Text.quote text ++
      ", using placeholder requirement".toList
  | requirement segment r =>
    "DEBUG memaddr_parser.parser.requirement_parser: Parsed ".toList ++ Text.quote segment ++
      " -> ".toList ++ r.describe
  | noShape segment =>
    "WARNING memaddr_parser.parser.requirement_parser: No requirement shape matches ".toList ++
      Text.quote segment
  | finished groups requirements addresses =>
    "INFO memaddr_parser.pipeline.mem_analysis: Parsed Mem string into ".toList ++
      Numeral.natural groups ++ " group(s), ".toList ++ Numeral.natural requirements ++
      " requirement(s), ".toList ++ Numeral.natural addresses ++ " address(es)".toList

end Event

/-- What reading one segment notes: nothing where the segment has a shape but a number in it is
too long. -/
def segmentEvents (segment : Text) : List Event :=
  match Requirement.read segment with
  | .ok r => [.requirement segment r]
  | .error (.noShape s) => [.noShape s]
  | .error _ => []

/-- Notes on segments up to the first that fails. -/
def segmentsEvents : List Text → List Event
  | [] => []
  | segment :: segments =>
    segmentEvents segment ++
      if (Requirement.read segment).isOk then segmentsEvents segments else []

def groupEvents (text : Text) : List Event :=
  match Group.segments text with
  | [] => [.emptyGroup text]
  | segments => segmentsEvents segments

/-- Notes on groups up to the first that fails. -/
def groupsEvents : List Text → List Event
  | [] => []
  | text :: texts =>
    groupEvents text ++ if (Group.read text).isOk then groupsEvents texts else []

/-- All notes on a text; a summary ends them where it reads well. -/
def journal (t : Text) : List Event :=
  groupsEvents (Group.split t) ++
    match read t with
    | .ok c => [.finished c.groups.length c.groups.flatten.length c.addresses.length]
    | .error _ => []

end MemLogic.Condition
