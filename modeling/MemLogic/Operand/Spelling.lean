import MemLogic.Operand
import MemLogic.Payload

/-! How operands are written, and their reading in one pass from the left. -/

namespace MemLogic

/-- Marks in front of an operand. The decimal mark is of no effect beyond making a value. -/
inductive Modifier where
  | delta
  | prior
  | bcd
  | inverted
  | float
  | decimal
  deriving DecidableEq, Repr

namespace Modifier

/-- Letters are read in either case. -/
def ofChar? (c : Char) : Option Modifier :=
  match c.toLower with
  | 'd' => some delta
  | 'p' => some prior
  | 'b' => some bcd
  | '~' => some inverted
  | 'f' => some float
  | 'v' => some decimal
  | _ => none

def kind : Modifier → Kind
  | delta => .delta
  | prior => .prior
  | bcd => .bcd
  | inverted => .inverted
  | float => .float
  | decimal => .value

end Modifier

namespace Operand

/-- The parts of an operand as written. -/
inductive Spelling where
  | recalled
  | named (name : Text)
  | constant (word : Text)
  | plain (modifier : Option Modifier) (size : Text) (payload : Text)
  deriving DecidableEq, Repr

namespace Spelling

/-- Encodings that follow an `f` in a size token. -/
def encodingLetters : Text :=
  "fbhilm".toList

/-- Letters that follow `0x` in a size token. -/
def sizeLetters : Text :=
  "hwxlumnopqrstkijg".toList

/-- Size tokens in lower case, each before the shorter ones that it starts with. The lone `h`
marks a hexadecimal literal. -/
def sizeTokens : List Text :=
  encodingLetters.map (['f', ·]) ++ sizeLetters.map (['0', 'x', ·]) ++
    [['0', 'x', ' '], ['0', 'x'], ['h']]

def splitSize (t : Text) : Text × Text :=
  Text.splitToken sizeTokens t

/-- An `f` that starts a size token is no modifier. -/
def splitModifier (t : Text) : Option Modifier × Text :=
  match t with
  | [] => (none, t)
  | c :: r =>
    match Modifier.ofChar? c with
    | some .float =>
      if r.head?.any (encodingLetters.contains ·.toLower) then (none, t) else (some .float, r)
    | some modifier => (some modifier, r)
    | none => (none, t)

def splitSign (t : Text) : Text × Text :=
  match t with
  | [] => ([], t)
  | c :: r => if c = '+' ∨ c = '-' then ([c], r) else ([], t)

/-- Letters and digits up to the first other character. -/
def splitWord (t : Text) : Text × Text :=
  (t.takeWhile Char.isAlphanum, t.dropWhile Char.isAlphanum)

def splitFraction (t : Text) : Text × Text :=
  match t with
  | '.' :: r => ('.' :: (splitWord r).1, (splitWord r).2)
  | _ => ([], t)

/-- A sign, letters and digits, and a dot with more of them, each where present. -/
def splitPayload (t : Text) : Text × Text :=
  let sign := splitSign t
  let whole := splitWord sign.2
  let fraction := splitFraction whole.2
  (sign.1 ++ whole.1 ++ fraction.1, fraction.2)

/-- A name of letters and digits in braces. -/
def splitBraced? (t : Text) : Option (Text × Text) :=
  match t with
  | '\x7b' :: inner =>
    match splitWord inner with
    | (name, '\x7d' :: rest) => if name = [] then none else some (name, rest)
    | _ => none
  | _ => none

def ofName (name : Text) : Spelling :=
  if Text.lower name = "recall".toList then recalled else named name

/-- A constant that no dot turns into other text. -/
def splitConstant? (t : Text) : Option (Text × Text) :=
  let word := splitWord t
  if Payload.isConstant word.1 ∧ word.2.head? ≠ some '.' then some word else none

/-- What is neither in braces nor a constant: a modifier, a size and a payload, the payload being
all that can follow them. -/
def splitPlain (t : Text) : Spelling × Text :=
  let modifier := splitModifier t
  let size := splitSize modifier.2
  let payload := splitPayload size.2
  (plain modifier.1 size.1 payload.1, payload.2)

/-- The operand that a text starts with, as long as can be and possibly empty, with what
follows it. -/
def scan (t : Text) : Spelling × Text :=
  match splitBraced? t, splitConstant? t with
  | some (name, rest), _ => (ofName name, rest)
  | none, some (word, rest) => (constant word, rest)
  | none, none => splitPlain t

/-- Reads a whole text as one operand. -/
def read? (t : Text) : Option Spelling :=
  if (scan t).2 = [] then some (scan t).1 else none

/-- A size in front of a payload makes it an address, which the decimal mark turns into a value
again. Without a size the payload is a literal, verbatim behind a float mark. -/
def plainOperand (modifier : Option Modifier) (size : Option Size) (payload : Text) :
    Except Error Operand :=
  match modifier, size with
  | some .float, none => .ok ⟨.float, none, payload⟩
  | some .decimal, some _ => .ok ⟨.value, none, Payload.ofAddress payload⟩
  | some modifier, some size => .ok ⟨modifier.kind, some size, Payload.ofAddress payload⟩
  | none, some size =>
    .ok ⟨if size.readsFloat then .float else .mem, some size, Payload.ofAddress payload⟩
  | modifier, none =>
    (Payload.ofLiteral payload).map fun literal =>
      ⟨(modifier.map Modifier.kind).getD .value, none, literal⟩

/-- The operand that a spelling stands for; behind a lone `h` the modifier is of no effect. -/
def operand : Spelling → Except Error Operand
  | recalled => .ok ⟨.recalled, none, []⟩
  | named name => .ok ⟨.named, none, name⟩
  | constant word => .ok ⟨.value, none, word⟩
  | plain modifier size payload =>
    if size = [] then plainOperand modifier none payload
    else if Text.lower size = ['h'] then .ok ⟨.value, none, Payload.ofAddress payload⟩
    else do plainOperand modifier (some (← Size.ofToken size)) payload

end Spelling

/-- Reads a whole text as one operand. -/
def read (t : Text) : Except Error Operand :=
  match Spelling.read? t with
  | some spelling => spelling.operand
  | none => .error (.noShape t)

end Operand

end MemLogic
