import MemLogic.Operand.Spelling

/-! The operand grammar as ordered choice: all ways to take an operand off the front of a text,
each before those it is preferred to. A sign, a size or a modifier may be given back here, where
the one-pass reader never does so. -/

namespace MemLogic.Operand.Grammar

/-- All that a pattern can take off the front of a text, with what is left, most preferred
first. -/
abbrev Pattern (α : Type) := Text → List (α × Text)

namespace Pattern

def andThen {α β : Type} (p : Pattern α) (next : α → Pattern β) : Pattern β :=
  fun t => (p t).flatMap fun (a, rest) => next a rest

def yield {α : Type} (a : α) : Pattern α :=
  fun t => [(a, t)]

/-- Taking something is preferred to taking nothing. -/
def optional {α : Type} (p : Pattern α) : Pattern (Option α) :=
  fun t => (p t).map (fun (a, rest) => (some a, rest)) ++ [(none, t)]

def choice {α : Type} (ps : List (Pattern α)) : Pattern α :=
  fun t => ps.flatMap fun p => p t

/-- One pattern behind the other, with what both take. -/
def both {α β : Type} (p : Pattern α) (q : Pattern β) : Pattern (α × β) :=
  andThen p fun a => andThen q fun b => yield (a, b)

/-- One character of a class. -/
def one (inClass : Char → Bool) : Pattern Char
  | [] => []
  | c :: r => if inClass c then [(c, r)] else []

/-- Characters of a class, more of them before fewer. -/
def many (inClass : Char → Bool) : Pattern Text
  | [] => [([], [])]
  | c :: r =>
    if inClass c then (many inClass r).map (fun (w, rest) => (c :: w, rest)) ++ [([], c :: r)]
    else [([], c :: r)]

/-- Characters of a class, and at least one. -/
def many1 (inClass : Char → Bool) : Pattern Text :=
  andThen (one inClass) fun c => andThen (many inClass) fun w => yield (c :: w)

def word : Pattern Text :=
  many Char.isAlphanum

/-- Tokens that the text starts with in any ASCII letter case, in the order listed. -/
def token (tokens : List Text) : Pattern Text :=
  fun t => (tokens.filter (·.isPrefixOf (Text.lower t))).map fun k => t.splitAt k.length

/-- Takes nothing, and only where the next character is not of a class. -/
def unlessNext (inClass : Char → Bool) : Pattern Unit :=
  fun t => if t.head?.any inClass then [] else [((), t)]

/-- The most preferred way to take a whole text. -/
def whole? {α : Type} (p : Pattern α) (t : Text) : Option α :=
  ((p t).find? (·.2.isEmpty)).map Prod.fst

end Pattern

open Pattern

def braced (p : Pattern Text) : Pattern Text :=
  andThen (one (· == '\x7b')) fun _ => andThen p fun name =>
    andThen (one (· == '\x7d')) fun _ => yield name

def recalled : Pattern Spelling :=
  andThen (braced (token ["recall".toList])) fun _ => yield .recalled

def named : Pattern Spelling :=
  andThen (braced (many1 Char.isAlphanum)) fun name => yield (.named name)

def constant : Pattern Spelling :=
  andThen (token Payload.constantWords) fun w =>
    andThen (unlessNext Char.isAlphanum) fun _ => yield (.constant w)

def modifier : Pattern Modifier :=
  andThen (one fun c => (Modifier.ofChar? c).isSome) fun c =>
    match Modifier.ofChar? c with
    | some .float =>
      andThen (unlessNext fun e => Spelling.encodingLetters.contains e.toLower) fun _ =>
        yield .float
    | some m => yield m
    | none => fun _ => []

/-- A sign, a word, and a dot with another word; all may be absent, but not the first word. -/
def payload : Pattern Text :=
  andThen (optional (one fun c => c == '+' || c == '-')) fun sign =>
    andThen word fun whole =>
      andThen (optional (andThen (one (· == '.')) fun dot =>
        andThen word fun w => yield (dot :: w))) fun fraction =>
          yield (sign.toList ++ whole ++ fraction.getD [])

def plain : Pattern Spelling :=
  andThen (optional modifier) fun m =>
    andThen (optional (token Spelling.sizeTokens)) fun size =>
      andThen payload fun p => yield (.plain m (size.getD []) p)

def operand : Pattern Spelling :=
  choice [recalled, named, constant, plain]

/-- The most preferred reading that takes a whole text. -/
def read? (t : Text) : Option Spelling :=
  whole? operand t

end MemLogic.Operand.Grammar
