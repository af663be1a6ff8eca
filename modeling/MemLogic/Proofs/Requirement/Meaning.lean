import MemLogic.Proofs.Outcome
import MemLogic.Proofs.Requirement.Segments

/-! What the pieces of a reading stand for. Flags and comparators that were taken off are known, so
that only numbers can fail. -/

namespace MemLogic
open Text

namespace Flag

theorem letter_injective {f g : Flag} (h : f.letter = g.letter) : f = g := by
  have same := ofLetter_letter f
  rw [h, ofLetter_letter g] at same
  exact (Except.ok.inj same).symm

/-- A flag letter in either case is that of a flag. -/
theorem ofLetter_eq_ok {c : Char} (h : c.toUpper ∈ "PRABCDNOMQITZGK".toList) {f : Flag} :
    ofLetter [c] = .ok f ↔ f.letter = [c.toUpper] := by
  have beyond : ∀ d ∈ "PRABCDNOMQITZGK".toList, d.toNat < 128 := by decide
  have known : ∀ d ∈ "PRABCDNOMQITZGK".toList,
      ∃ g ∈ all, all.find? (·.letter == [d]) = some g ∧ g.letter = [d] := by decide
  have ascii : c.toNat < 128 := by
    by_contra high
    rw [toUpper_of_le (by omega)] at h
    exact high (beyond c h)
  obtain ⟨g, _, found, letter⟩ := known _ h
  have read : ofLetter [c] = .ok g := by
    simp [ofLetter, upper, upperChar_of_lt ascii, found]
  rw [read, Except.ok.injEq, ← letter]
  constructor
  · rintro rfl
    rfl
  · exact fun same => (letter_injective same).symm

theorem ofLetter_nil {f : Flag} : ofLetter [] = .ok f ↔ f = .plain := by
  have read : ofLetter [] = .ok .plain := rfl
  rw [read, Except.ok.injEq]
  exact eq_comm

theorem exists_ofLetter {c : Char} (h : c.toUpper ∈ "PRABCDNOMQITZGK".toList) :
    ∃ f, ofLetter [c] = .ok f := by
  have known : ∀ d ∈ "PRABCDNOMQITZGK".toList, ∃ g ∈ all, g.letter = [d] := by decide
  obtain ⟨f, _, letter⟩ := known _ h
  exact ⟨f, (ofLetter_eq_ok h).mpr letter⟩

end Flag

namespace Comparator

/-- Only the doubled equals sign is not the symbol of a comparator. -/
theorem ofSymbol_eq_ok {t : Text} (h : t ∈ Requirement.Spelling.comparatorTokens)
    {c : Comparator} :
    ofSymbol t = .ok c ↔ c.symbol = if t = "==".toList then "=".toList else t := by
  have known : ∀ t ∈ Requirement.Spelling.comparatorTokens, ∀ c ∈ all,
      ofSymbol t = .ok c ↔ c.symbol = if t = "==".toList then "=".toList else t := by decide
  exact known t h c (mem_all c)

theorem exists_ofSymbol {t : Text} (h : t ∈ Requirement.Spelling.comparatorTokens) :
    ∃ c, ofSymbol t = .ok c := by
  have known : ∀ t ∈ Requirement.Spelling.comparatorTokens, ∃ c ∈ all, ofSymbol t = .ok c := by
    decide
  obtain ⟨c, _, read⟩ := known t h
  exact ⟨c, read⟩

end Comparator

namespace Requirement
open Spelling

theorem Spelling.HitCount.filter {digits t : Text} (h : HitCount digits t) :
    t.filter Char.isDigit = digits := by
  obtain ⟨o, c, opening, closing, _, digit, rfl⟩ := h
  have first : ∀ o ∈ ".(".toList, o.isDigit = false := by decide
  have last : ∀ c ∈ ".)]".toList, c.isDigit = false := by decide
  rw [List.cons_append, List.filter_cons_of_neg (by simp [first o opening]), List.filter_append,
    List.filter_eq_self.mpr digit]
  simp [last c closing]

namespace Reading

def Flags (r : Reading) (f : Flag) : Prop :=
  r.flag = [] ∧ f = .plain ∨ ∃ c : Char, r.flag = [c, ':'] ∧ f.letter = [c.toUpper]

/-- Without a comparison the left operand equals a blank value; the doubled equals sign is a single
one. -/
def Compares (r : Reading) (c : Comparator) (right : Operand) : Prop :=
  match r.comparison with
  | none => c = .eq ∧ right = .blank
  | some (symbol, t) => c.symbol = (if symbol = "==".toList then "=".toList else symbol) ∧
      Operand.read t = .ok right

/-- The digits of the hit count. -/
def digits (r : Reading) : Text :=
  r.hits.filter Char.isDigit

/-- Accumulating flags count no hits; without a hit count there are zero. -/
def Counts (r : Reading) (f : Flag) (hits : Option Int) : Prop :=
  if f.accumulates then hits = none
  else r.digits.length ≤ Numeral.maxDigits ∧
    hits = some (Numeral.ofDigits (r.digits.map fun d => d.toNat - '0'.toNat) : Int)

/-- The requirement is what the pieces stand for, each by itself. -/
structure Yields (r : Reading) (q : Requirement) : Prop where
  flag : r.Flags q.flag
  left : Operand.read r.left = .ok q.left
  comparison : r.Compares q.comparator q.right
  hits : r.Counts q.flag q.hits

/-- The leftmost piece that cannot be resolved. -/
inductive Fails (r : Reading) (e : Error) : Prop where
  | left (fails : Operand.read r.left = .error e)
  | right {symbol t : Text} {o : Operand} (left : Operand.read r.left = .ok o)
      (comparison : r.comparison = some (symbol, t)) (fails : Operand.read t = .error e)
  | hits {f : Flag} {c : Comparator} {o o' : Operand} (flag : r.Flags f)
      (left : Operand.read r.left = .ok o) (comparison : r.Compares c o')
      (counted : ¬ f.accumulates) (long : Numeral.maxDigits < r.digits.length)
      (error : e = .tooManyDigits r.digits.length)

variable {r : Reading} {s : Spelling}

theorem SpelledAs.flag_eq_ok (h : r.SpelledAs s) {f : Flag} :
    Flag.ofLetter s.flag = .ok f ↔ r.Flags f := by
  rcases h.flag with ⟨empty, same⟩ | ⟨c, letter, flag, same⟩
  · rw [same, Flag.ofLetter_nil]
    simp [Flags, empty]
  · rw [same, Flag.ofLetter_eq_ok letter]
    constructor
    · exact fun read => .inr ⟨c, flag, read⟩
    · rintro (⟨empty, _⟩ | ⟨d, split, read⟩)
      · simp [flag] at empty
      · obtain ⟨rfl, _⟩ := List.cons.inj (flag.symm.trans split)
        exact read

theorem SpelledAs.flag_ok (h : r.SpelledAs s) : ∃ f, Flag.ofLetter s.flag = .ok f := by
  rcases h.flag with ⟨_, same⟩ | ⟨c, letter, _, same⟩
  · exact ⟨.plain, by rw [same]; rfl⟩
  · rw [same]
    exact Flag.exists_ofLetter letter

theorem SpelledAs.left_eq (h : r.SpelledAs s) : s.left.operand = Operand.read r.left :=
  (Operand.read_eq_operand h.sides.operand).symm

/-- The comparator is found before the right operand is resolved, and always. -/
theorem SpelledAs.comparison_eq_ok (h : r.SpelledAs s) {o : Operand} {c : Comparator} :
    Comparator.ofSymbol ((s.comparison.map Prod.fst).getD []) = .ok c ∧
      (s.comparison.map fun c => c.2.operand).getD (.ok .blank) = .ok o ↔ r.Compares c o := by
  have spells := h.sides.spells
  unfold Compares
  generalize r.comparison = pieces at spells ⊢
  generalize s.comparison = spelled at spells ⊢
  cases spells with
  | none =>
    have read : Comparator.ofSymbol [] = .ok .eq := rfl
    simp only [Option.map_none, Option.getD_none, read, Except.ok.injEq]
    constructor
    · rintro ⟨rfl, rfl⟩
      exact ⟨rfl, rfl⟩
    · rintro ⟨rfl, rfl⟩
      exact ⟨rfl, rfl⟩
  | @some symbol t right comparator operand =>
    simp only [Option.map_some, Option.getD_some, Comparator.ofSymbol_eq_ok comparator,
      Operand.read_eq_operand operand]

theorem SpelledAs.comparator_ok (h : r.SpelledAs s) :
    ∃ c, Comparator.ofSymbol ((s.comparison.map Prod.fst).getD []) = .ok c := by
  have spells := h.sides.spells
  generalize r.comparison = pieces at spells
  generalize s.comparison = spelled at spells ⊢
  cases spells with
  | none => exact ⟨.eq, rfl⟩
  | some comparator _ => exact Comparator.exists_ofSymbol comparator

theorem SpelledAs.right_eq_error (h : r.SpelledAs s) {e : Error} :
    (s.comparison.map fun c => c.2.operand).getD (.ok .blank) = .error e ↔
      ∃ symbol t, r.comparison = some (symbol, t) ∧ Operand.read t = .error e := by
  have spells := h.sides.spells
  generalize r.comparison = pieces at spells ⊢
  generalize s.comparison = spelled at spells ⊢
  cases spells with
  | none => simp
  | @some symbol t right comparator operand =>
    simp only [Option.map_some, Option.getD_some, ← Operand.read_eq_operand operand]
    constructor
    · exact fun fails => ⟨symbol, t, rfl, fails⟩
    · rintro ⟨_, _, same, fails⟩
      obtain ⟨rfl, rfl⟩ := Prod.mk.inj (Option.some.inj same)
      exact fails

/-- The hit count fails for its length alone, and only where hits are counted. -/
theorem SpelledAs.hitCount_eq (h : r.SpelledAs s) (f : Flag) :
    hitCount f s.hits = if f.accumulates then .ok none
      else if Numeral.maxDigits < r.digits.length then .error (.tooManyDigits r.digits.length)
      else .ok (some (Numeral.ofDigits (r.digits.map fun d => d.toNat - '0'.toNat) : Int)) := by
  unfold hitCount
  split
  · rfl
  · rcases h.hits with ⟨empty, same⟩ | ⟨digits, hit, same⟩
    · rw [same]
      simp [Reading.digits, empty, Numeral.ofDigits]
    · rw [same]
      simp only [Reading.digits, hit.filter, Numeral.read, List.length_map]
      split <;> rfl

theorem SpelledAs.hits_eq_ok (h : r.SpelledAs s) {f : Flag} {hits : Option Int} :
    hitCount f s.hits = .ok hits ↔ r.Counts f hits := by
  rw [h.hitCount_eq, Counts]
  split
  · rw [Except.ok.injEq]
    exact eq_comm
  · split
    · rename_i long
      simp [Nat.not_le.mpr long]
    · rename_i short
      rw [Except.ok.injEq, eq_comm]
      simp [Nat.not_lt.mp short]

theorem SpelledAs.hits_eq_error (h : r.SpelledAs s) {f : Flag} {e : Error} :
    hitCount f s.hits = .error e ↔ ¬ f.accumulates ∧ Numeral.maxDigits < r.digits.length ∧
      e = .tooManyDigits r.digits.length := by
  rw [h.hitCount_eq]
  split
  · rename_i accumulates
    simp [accumulates]
  · rename_i counted
    split
    · rename_i long
      rw [Except.error.injEq, eq_comm]
      simp [counted, long]
    · rename_i short
      simp [short]

theorem SpelledAs.requirement_eq_ok (h : r.SpelledAs s) {q : Requirement} :
    s.requirement = .ok q ↔ r.Yields q := by
  simp only [Spelling.requirement, bind_eq_ok, pure_eq_ok, h.left_eq]
  constructor
  · rintro ⟨f, flag, l, left, c, comparator, o, right, n, hits, rfl⟩
    exact ⟨h.flag_eq_ok.mp flag, left, h.comparison_eq_ok.mp ⟨comparator, right⟩,
      h.hits_eq_ok.mp hits⟩
  · rintro ⟨flag, left, comparison, hits⟩
    obtain ⟨comparator, right⟩ := h.comparison_eq_ok.mpr comparison
    exact ⟨_, h.flag_eq_ok.mpr flag, _, left, _, comparator, _, right, _, h.hits_eq_ok.mpr hits,
      rfl⟩

theorem SpelledAs.requirement_eq_error (h : r.SpelledAs s) {e : Error} :
    s.requirement = .error e ↔ r.Fails e := by
  obtain ⟨f, flag⟩ := h.flag_ok
  obtain ⟨c, comparator⟩ := h.comparator_ok
  simp only [Spelling.requirement, bind_eq_error, pure_ne_error, h.left_eq, flag, comparator,
    reduceCtorEq, false_or, Except.ok.injEq, exists_eq_left', and_false, exists_false, or_false]
  constructor
  · rintro (fails | ⟨l, left, fails | ⟨o, right, fails⟩⟩)
    · exact .left fails
    · obtain ⟨symbol, t, comparison, fails⟩ := h.right_eq_error.mp fails
      exact .right left comparison fails
    · obtain ⟨counted, long, error⟩ := h.hits_eq_error.mp fails
      exact .hits (h.flag_eq_ok.mp flag) left (h.comparison_eq_ok.mp ⟨comparator, right⟩) counted
        long error
  · rintro (fails | ⟨left, comparison, fails⟩ | ⟨flag', left, comparison, counted, long, error⟩)
    · exact .inl fails
    · exact .inr ⟨_, left, .inl (h.right_eq_error.mpr ⟨_, _, comparison, fails⟩)⟩
    · obtain ⟨_, right⟩ := h.comparison_eq_ok.mpr comparison
      obtain rfl := Except.ok.inj (flag.symm.trans (h.flag_eq_ok.mpr flag'))
      exact .inr ⟨_, left, .inr ⟨_, right, h.hits_eq_error.mpr ⟨counted, long, error⟩⟩⟩

end Reading
end Requirement
end MemLogic
