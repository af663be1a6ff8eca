import MemLogic.Numeral

/-! JSON documents and their indented text. -/

namespace MemLogic

inductive Json where
  | null
  | number (value : Int)
  | string (value : Text)
  | array (items : List Json)
  | object (fields : List (Text × Json))

namespace Json

/-- Four hexadecimal digits behind a backslash and a `u`. -/
def escapeUnit (n : Nat) : Text :=
  '\\' :: 'u' :: (Nat.toDigits 16 n).leftpad 4 '0'

/-- Characters outside printable ASCII become UTF-16 units; the five with a short form use
it. -/
def escapeChar (c : Char) : Text :=
  if c = '"' ∨ c = '\\' then ['\\', c]
  else if c = '\n' then ['\\', 'n']
  else if c = '\r' then ['\\', 'r']
  else if c = '\t' then ['\\', 't']
  else if c = '\x08' then ['\\', 'b']
  else if c = '\x0c' then ['\\', 'f']
  else if ' ' ≤ c ∧ c ≤ '~' then [c]
  else if c.toNat < 0x10000 then escapeUnit c.toNat
  else
    escapeUnit (0xd800 + (c.toNat - 0x10000) / 0x400) ++
      escapeUnit (0xdc00 + (c.toNat - 0x10000) % 0x400)

def quote (t : Text) : Text :=
  '"' :: t.flatMap escapeChar ++ ['"']

/-- A line break and two spaces for each level. -/
def newline (depth : Nat) : Text :=
  '\n' :: List.replicate (2 * depth) ' '

/-- Items on lines of their own inside brackets, which close up where there is none. -/
def enclose (opening closing : Char) (depth : Nat) (items : List Text) : Text :=
  if items = [] then [opening, closing]
  else
    opening :: newline (depth + 1) ++ List.intercalate (',' :: newline (depth + 1)) items ++
      newline depth ++ [closing]

mutual

/-- The text of a value whose brackets stand at a depth. -/
def renderAt (depth : Nat) : Json → Text
  | null => "null".toList
  | number value => Numeral.integer value
  | string value => quote value
  | array items => enclose '[' ']' depth (renderItems (depth + 1) items)
  | object fields => enclose '\x7b' '\x7d' depth (renderFields (depth + 1) fields)

def renderItems (depth : Nat) : List Json → List Text
  | [] => []
  | item :: items => renderAt depth item :: renderItems depth items

def renderFields (depth : Nat) : List (Text × Json) → List Text
  | [] => []
  | (key, value) :: fields =>
    (quote key ++ [':', ' '] ++ renderAt depth value) :: renderFields depth fields

end

def render (document : Json) : Text :=
  document.renderAt 0

end Json

end MemLogic
