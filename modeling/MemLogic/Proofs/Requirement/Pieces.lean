import MemLogic.Proofs.Operand.Shape
import MemLogic.Requirement.Reading

/-! The pieces around the operands of a requirement: flags, comparators and hit counts, each taken
off exactly where one stands. -/

namespace MemLogic.Requirement
open Text Operand.Spelling
namespace Spelling

theorem flagLetter_iff (c : Char) :
    flagLetters.contains c.toLower = true ↔ c.toUpper ∈ "PRABCDNOMQITZGK".toList := by
  refine forall_of_ascii
    (fun c => flagLetters.contains c.toLower = true ↔ c.toUpper ∈ "PRABCDNOMQITZGK".toList)
    (by decide +kernel) ?_ c
  intro c h
  have beyond : ∀ d ∈ flagLetters ++ "PRABCDNOMQITZGK".toList, d.toNat < 128 := by decide
  rw [toLower_of_le h, toUpper_of_le h]
  constructor
  · intro member
    have := beyond c (List.mem_append_left _ (by simpa using member))
    omega
  · intro member
    have := beyond c (List.mem_append_right _ member)
    omega

theorem splitFlag_flag {c : Char} (letter : c.toUpper ∈ "PRABCDNOMQITZGK".toList) (t : Text) :
    splitFlag (c :: ':' :: t) = ([c], t) := by
  have member := (flagLetter_iff c).mpr letter
  simp only [splitFlag, member, if_true]

theorem splitFlag_of_not_mem {t : Text} (h : ':' ∉ t) : splitFlag t = ([], t) := by
  unfold splitFlag
  split
  · exact absurd (by simp) h
  · rfl

theorem splitFlag_cases (t : Text) : splitFlag t = ([], t) ∨ ∃ c r, t = c :: ':' :: r ∧
    c.toUpper ∈ "PRABCDNOMQITZGK".toList ∧ splitFlag t = ([c], r) := by
  by_cases flagged : ∃ c r, t = c :: ':' :: r ∧ c.toUpper ∈ "PRABCDNOMQITZGK".toList
  · obtain ⟨c, r, rfl, letter⟩ := flagged
    exact .inr ⟨c, r, rfl, letter, splitFlag_flag letter r⟩
  · left
    unfold splitFlag
    split
    · rename_i c r
      rw [if_neg]
      exact fun member => flagged ⟨c, r, rfl, (flagLetter_iff c).mp member⟩
    · rfl

/-- The text of a hit count with the digits in it. -/
def HitCount (digits t : Text) : Prop :=
  ∃ opening closing : Char, opening ∈ ".(".toList ∧ closing ∈ ".)]".toList ∧ digits ≠ [] ∧
    (∀ d ∈ digits, d.isDigit) ∧ t = opening :: digits ++ [closing]

theorem isHitCount_iff (t : Text) : Reading.IsHitCount t ↔ ∃ digits, HitCount digits t := by
  constructor
  · rintro ⟨o, c, digits, rest⟩
    exact ⟨digits, o, c, rest⟩
  · rintro ⟨digits, o, c, rest⟩
    exact ⟨o, c, digits, rest⟩

theorem hitDigits?_eq_some {t digits : Text} :
    hitDigits? t = some digits ↔ HitCount digits t := by
  cases t with
  | nil => simp [hitDigits?, HitCount]
  | cons o r =>
    simp only [hitDigits?, Option.ite_none_right_eq_some, Option.some.injEq]
    constructor
    · rintro ⟨⟨opening, nonempty, closing⟩, rfl⟩
      have whole := List.takeWhile_append_dropWhile (p := Char.isDigit) (l := r)
      obtain ⟨c, member, left⟩ :
          ∃ c, c ∈ ".)]".toList ∧ r.dropWhile Char.isDigit = [c] := by
        simp only [isClosing, Bool.or_eq_true, beq_iff_eq] at closing
        rcases closing with (h | h) | h
        · exact ⟨_, by decide, h⟩
        · exact ⟨_, by decide, h⟩
        · exact ⟨_, by decide, h⟩
      refine ⟨o, c, ?_, member, nonempty, fun d hd => List.mem_takeWhile_imp hd, ?_⟩
      · rcases opening with rfl | rfl <;> decide
      · rw [List.cons_append, ← left, whole]
    · rintro ⟨o', c, opening, closing, nonempty, digit, split⟩
      obtain ⟨rfl, rfl⟩ : o = o' ∧ r = digits ++ [c] := List.cons.inj split
      have stop : StopsAt Char.isDigit [c] := by
        have all : ∀ c ∈ ".)]".toList, c.isDigit = false := by decide
        exact stopsAt_cons.mpr (all c closing)
      have taken := takeWhile_append_of_stopsAt digit stop
      have left := dropWhile_append_of_stopsAt digit stop
      refine ⟨⟨?_, by rwa [taken], ?_⟩, taken⟩
      · have all : ∀ o ∈ ".(".toList, o = '.' ∨ o = '(' := by decide
        exact all o opening
      · have all : ∀ c ∈ ".)]".toList, isClosing [c] := by decide
        rw [left]
        exact all c closing

/-- Only the whole of a hit count is one: its opening is no digit. -/
theorem HitCount.not_append {digits h : Text} (hit : HitCount digits h) (c : Char) (x more : Text) :
    ¬ HitCount more (c :: x ++ h) := by
  rintro ⟨o', cl', _, _, _, digit, split⟩
  obtain ⟨o, cl, opening, _, _, _, rfl⟩ := hit
  obtain ⟨_, rest⟩ := List.cons.inj split
  have inside : (x ++ o :: digits) ++ [cl] = more ++ [cl'] := by simpa using rest
  have member : o ∈ more := by
    rw [← (List.append_inj' inside rfl).1]
    simp
  have all : ∀ o ∈ ".(".toList, o.isDigit = false := by decide
  exact absurd (digit o member) (by simp [all o opening])

theorem splitHits_append {digits h : Text} (hit : HitCount digits h) (x : Text) :
    splitHits (x ++ h) = (x, some digits) := by
  induction x with
  | nil =>
    have found := hitDigits?_eq_some.mpr hit
    obtain ⟨o, c, _, _, _, _, rfl⟩ := hit
    simp only [List.nil_append, List.cons_append, splitHits] at found ⊢
    rw [found]
  | cons c x ih =>
    have other : hitDigits? (c :: x ++ h) = none := by
      cases hd : hitDigits? (c :: x ++ h) with
      | none => rfl
      | some more => exact absurd (hitDigits?_eq_some.mp hd) (hit.not_append c x more)
    simp only [List.cons_append, splitHits] at other ⊢
    rw [other, ih]

theorem splitHits_of_forall {t : Text}
    (h : ∀ x y digits, t = x ++ y → ¬ HitCount digits y) : splitHits t = (t, none) := by
  induction t with
  | nil => rfl
  | cons c t ih =>
    have other : hitDigits? (c :: t) = none := by
      cases hd : hitDigits? (c :: t) with
      | none => rfl
      | some digits => exact absurd (hitDigits?_eq_some.mp hd) (h [] _ digits rfl)
    rw [splitHits, other, ih fun x y digits split => h (c :: x) y digits (by rw [split]; rfl)]

theorem splitHits_cases (t : Text) :
    (splitHits t = (t, none) ∧ ∀ x y digits, t = x ++ y → ¬ HitCount digits y) ∨
      ∃ x y digits, t = x ++ y ∧ HitCount digits y ∧ splitHits t = (x, some digits) := by
  by_cases hit : ∃ x y digits, t = x ++ y ∧ HitCount digits y
  · obtain ⟨x, y, digits, rfl, hit⟩ := hit
    exact .inr ⟨x, y, digits, rfl, hit, splitHits_append hit x⟩
  · push Not at hit
    exact .inl ⟨splitHits_of_forall hit, hit⟩

theorem isComparator_iff (t : Text) : Reading.IsComparator t ↔ t ∈ comparatorTokens := by
  have known : ∀ t ∈ comparatorTokens, t ∈ ["<=".toList, ">=".toList, "!=".toList, "==".toList] ∨
      ∃ c ∈ "<>=*/&+-^%".toList, t = [c] := by decide
  constructor
  · rintro (h | ⟨c, h, rfl⟩)
    · have all : ∀ t ∈ ["<=".toList, ">=".toList, "!=".toList, "==".toList],
          t ∈ comparatorTokens := by decide
      exact all t h
    · have all : ∀ c ∈ "<>=*/&+-^%".toList, [c] ∈ comparatorTokens := by decide
      exact all c h
  · exact known t

theorem comparatorTokens_ne_nil : ∀ t ∈ comparatorTokens, t ≠ [] := by decide

theorem comparatorTokens_outside : ∀ t ∈ comparatorTokens, ∀ c ∈ t, IsOutside c := by decide

/-- A comparator ends where an operand begins, as no operand begins with an equals sign. -/
theorem splitComparator_append {symbol : Text} (h : symbol ∈ comparatorTokens) {right : Text}
    (free : StopsAt (· == '=') right) :
    splitToken comparatorTokens (symbol ++ right) = (symbol, right) := by
  have signless : ∀ c ∈ right.head?, c.toLower ≠ '=' := by
    intro c hc
    rw [ne_eq, toLower_eq_iff (by decide)]
    simpa using free c hc
  simp only [comparatorTokens, List.mem_cons, List.not_mem_nil, or_false] at h
  rcases h with rfl | rfl | rfl | rfl | rfl | rfl | rfl | rfl | rfl | rfl | rfl | rfl | rfl | rfl
  all_goals
    cases right with
    | nil => rfl
    | cons c r =>
      have other := signless c rfl
      simp [splitToken, comparatorTokens, lower, List.isPrefixOf, other.symm]

/-- Comparators have no letters, so each is written in one way. -/
theorem lower_mem_comparatorTokens {x : Text} :
    lower x ∈ comparatorTokens ↔ x ∈ comparatorTokens := by
  have plain : ∀ t ∈ comparatorTokens, ∀ c ∈ t, c.isAlpha = false := by decide
  constructor
  · intro known
    rwa [lower_eq_self (plain _ known)] at known
  · intro known
    rwa [lower_of_letterless (plain _ known)]

theorem splitComparator_eq {t symbol right : Text}
    (h : splitToken comparatorTokens t = (symbol, right)) (nonempty : symbol ≠ []) :
    t = symbol ++ right ∧ symbol ∈ comparatorTokens := by
  rcases splitToken_cases comparatorTokens t with ⟨h', _⟩ | ⟨x, y, split, h', found⟩
  · exact absurd (Prod.mk.inj (h.symm.trans h')).1 nonempty
  · obtain ⟨rfl, rfl⟩ := Prod.mk.inj (h.symm.trans h')
    exact ⟨split, lower_mem_comparatorTokens.mp found⟩

end Spelling
end MemLogic.Requirement
