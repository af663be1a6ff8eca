/-! Texts as lists of code points, so that every length, width and cut counts code points. -/

namespace MemLogic

abbrev Text := List Char

namespace Text

/-! Facts of the characters in a text are decided along the text, not over all characters. -/

instance decidableForallMem (t : Text) (P : Char → Prop) [DecidablePred P] :
    Decidable (∀ c ∈ t, P c) :=
  List.decidableBAll P t

instance decidableExistsMem (t : Text) (P : Char → Prop) [DecidablePred P] :
    Decidable (∃ c ∈ t, P c) :=
  List.decidableBEx P t

instance decidableForallFirst (first : Option Char) (P : Char → Prop) [DecidablePred P] :
    Decidable (∀ c ∈ first, P c) :=
  decidable_of_iff (∀ c ∈ first.toList, P c) (by simp)

/-- ASCII letters go to lower case; every other character stays as it is. -/
def lower (t : Text) : Text :=
  t.map Char.toLower

/-- Takes the first of the listed tokens that the text starts with, in any ASCII letter case;
the token comes back as the text writes it, empty where none fits. -/
def splitToken (tokens : List Text) (t : Text) : Text × Text :=
  match tokens.find? (·.isPrefixOf (lower t)) with
  | some token => (t.take token.length, t.drop token.length)
  | none => ([], t)

theorem splitToken_append (tokens : List Text) (t : Text) :
    (splitToken tokens t).1 ++ (splitToken tokens t).2 = t := by
  unfold splitToken
  split <;> simp

/-- Ends each line with a line break. -/
def lines (ls : List Text) : Text :=
  ls.flatMap (· ++ ['\n'])

end Text

end MemLogic
