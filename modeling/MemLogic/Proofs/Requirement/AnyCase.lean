import MemLogic.Proofs.Operand.AnyCase
import MemLogic.Proofs.Requirement.Segments

/-! Requirements in any letter case. Lower case is put through the reader stage by stage, so that
any two segments that are one in lower case are read alike. -/

namespace MemLogic
open Text

namespace Text

theorem upperChar_toLower (c : Char) : upperChar c.toLower = upperChar c := by
  by_cases h : c.toNat < 128
  · have ascii : ∀ n < 128, (Char.ofNat n).toLower.toNat < 128 ∧
        (Char.ofNat n).toLower.toUpper = (Char.ofNat n).toUpper := by decide +kernel
    obtain ⟨low, same⟩ := ascii c.toNat h
    rw [Char.ofNat_toNat] at low same
    rw [upperChar_of_lt low, upperChar_of_lt h, same]
  · rw [toLower_of_le (by omega)]

theorem upper_lower (t : Text) : upper (lower t) = upper t := by
  simp only [upper, lower, List.flatMap_map, upperChar_toLower]

end Text

theorem Flag.ofLetter_lower (t : Text) : ofLetter (lower t) = lowered id (ofLetter t) := by
  simp only [ofLetter, upper_lower]
  split <;> rfl

/-- Comparators have no letters. -/
theorem Comparator.ofSymbol_lower (t : Text) : ofSymbol (lower t) = lowered id (ofSymbol t) := by
  have letterless : ∀ c ∈ all, ∀ d ∈ c.symbol, d.isAlpha = false := by decide
  have doubled : lower t = ['=', '='] ↔ t = ['=', '='] := lower_eq_iff (by decide) t
  have known : (fun c : Comparator => c.symbol == lower t) = fun c => c.symbol == t := by
    funext c
    rw [Bool.eq_iff_iff, beq_iff_eq, beq_iff_eq, eq_comm, lower_eq_iff (letterless c (mem_all c)) t,
      eq_comm]
  simp only [ofSymbol, lower_eq_nil, doubled, known]
  split
  · rfl
  · split <;> rfl

namespace Requirement

/-- The requirement with the values of its operands in lower case. -/
def lowerCase (q : Requirement) : Requirement :=
  { q with left := q.left.lowerCase, right := q.right.lowerCase }

/-- Requirements that differ in the letter case of the values of their operands at most. -/
structure SameButCase (q q' : Requirement) : Prop where
  flag : q.flag = q'.flag
  left : q.left.SameButCase q'.left
  comparator : q.comparator = q'.comparator
  right : q.right.SameButCase q'.right
  hits : q.hits = q'.hits

theorem sameButCase_of_lower {q q' : Requirement} (h : q.lowerCase = q'.lowerCase) :
    q.SameButCase q' := by
  obtain ⟨flag, left, comparator, right, hits⟩ := Requirement.mk.inj h
  exact ⟨flag, Operand.sameButCase_of_lower left, comparator, Operand.sameButCase_of_lower right,
    hits⟩

namespace Spelling

def lowerComparison (c : Option (Text × Operand.Spelling)) : Option (Text × Operand.Spelling) :=
  c.map fun c => (lower c.1, c.2.lowerCase)

/-- The parts in lower case; the digits of a hit count have none. -/
def lowerCase (s : Spelling) : Spelling :=
  ⟨lower s.flag, s.left.lowerCase, lowerComparison s.comparison, s.hits⟩

theorem splitFlag_cons (c d : Char) (t : Text) : splitFlag (c :: d :: t) =
    if d = ':' ∧ flagLetters.contains c.toLower then ([c], t) else ([], c :: d :: t) := by
  by_cases colon : d = ':'
  · subst colon
    simp only [splitFlag, true_and]
  · rw [if_neg fun both => colon both.1]
    unfold splitFlag
    split
    · rename_i same
      exact absurd (List.cons.inj (List.cons.inj same).2).1 colon
    · rfl

theorem splitFlag_lower (t : Text) :
    splitFlag (lower t) = (lower (splitFlag t).1, lower (splitFlag t).2) := by
  match t with
  | [] => rfl
  | [c] => rfl
  | c :: d :: t =>
    simp only [lower_cons, splitFlag_cons, toLower_toLower,
      toLower_eq_iff (show ':'.isAlpha = false by decide)]
    split <;> rfl

theorem HitCount.letterless {digits h : Text} (hit : HitCount digits h) :
    ∀ c ∈ h, c.isAlpha = false := by
  intro c hc
  have marks : ∀ c ∈ ".()]".toList, c.isAlpha = false := by decide
  rcases hit.chars c hc with digit | mark
  · exact isAlpha_of_isDigit digit
  · exact marks c mark

theorem hitDigits?_lower (t : Text) : hitDigits? (lower t) = hitDigits? t := by
  cases found : hitDigits? t with
  | some digits =>
    rw [lower_of_letterless (hitDigits?_eq_some.mp found).letterless, found]
  | none =>
    cases found' : hitDigits? (lower t) with
    | none => rfl
    | some digits =>
      rw [lower_eq_self (hitDigits?_eq_some.mp found').letterless, found] at found'
      exact absurd found' (by simp)

theorem splitHits_lower (t : Text) :
    splitHits (lower t) = (lower (splitHits t).1, (splitHits t).2) := by
  induction t with
  | nil => rfl
  | cons c t ih =>
    have digits := hitDigits?_lower (c :: t)
    rw [lower_cons] at digits ⊢
    simp only [splitHits, digits, ih]
    split <;> rfl

theorem comparison?_lower (t : Text) :
    comparison? (lower t) = (comparison? t).map lowerComparison := by
  simp only [comparison?, splitToken_lower, lower_eq_nil, Operand.Spelling.read?_lower]
  split
  · rfl
  · split
    · rfl
    · rw [Option.map_map, Option.map_map]
      rfl

theorem signComparison?_lower (t : Text) : signComparison? (lower t) =
    (signComparison? t).map fun sides => (sides.1.lowerCase, lowerComparison sides.2) := by
  simp only [signComparison?, Operand.Spelling.splitModifier_lower,
    Operand.Spelling.splitSize_lower, Operand.Spelling.splitSign_lower, lower_eq_nil,
    Operand.Spelling.read?_lower]
  split
  · rfl
  · rw [Option.map_map, Option.map_map]
    rfl

theorem sides?_lower (t : Text) : sides? (lower t) =
    (sides? t).map fun sides => (sides.1.lowerCase, lowerComparison sides.2) := by
  simp only [sides?, Operand.Spelling.scan_lower, comparison?_lower, signComparison?_lower]
  cases comparison? (Operand.Spelling.scan t).2 <;> rfl

theorem read?_lower (t : Text) : read? (lower t) = (read? t).map lowerCase := by
  simp only [read?, splitFlag_lower, splitHits_lower, sides?_lower, Option.map_map]
  rfl

/-- A hit count fails for the number of its digits alone. -/
theorem lowered_hitCount (f : Flag) (digits : Option Text) :
    lowered id (hitCount f digits) = hitCount f digits := by
  unfold hitCount
  split
  · rfl
  · cases digits with
    | none => rfl
    | some digits =>
      simp only [Numeral.read]
      split <;> rfl

theorem requirement_lower (s : Spelling) :
    s.lowerCase.requirement = lowered Requirement.lowerCase s.requirement := by
  have symbol : ((lowerComparison s.comparison).map Prod.fst).getD [] =
      lower ((s.comparison.map Prod.fst).getD []) := by
    cases s.comparison <;> rfl
  have right : ((lowerComparison s.comparison).map fun c => c.2.operand).getD (.ok .blank) =
      lowered Operand.lowerCase ((s.comparison.map fun c => c.2.operand).getD (.ok .blank)) := by
    cases s.comparison with
    | none => rfl
    | some c => exact Operand.Spelling.operand_lower c.2
  simp only [requirement, lowerCase, Flag.ofLetter_lower, Operand.Spelling.operand_lower, symbol,
    Comparator.ofSymbol_lower, right]
  refine lowered_bind fun flag => lowered_bind fun left => lowered_bind fun comparator =>
    lowered_bind fun right => ?_
  -- the digits of the hit count were not lowered, and its outcome has nothing to lower
  conv_lhs => rw [← lowered_hitCount]
  exact lowered_bind fun hits => rfl

end Spelling

/-- A segment is read in any letter case, and only the values of the operands keep the one that
they are written in. -/
theorem read_lower (t : Text) : read (lower t) = lowered lowerCase (read t) := by
  simp only [read, Spelling.read?_lower]
  cases Spelling.read? t with
  | none => rfl
  | some s => exact s.requirement_lower

/-- Of two segments that are one but for the case of ASCII letters, both or neither have a shape,
both or neither hold a number with too many digits, and both or neither are read; the requirements
then are one but for the case of letters in the values of their operands. -/
theorem read_any_case {s s' : Text} (same : lower s = lower s') :
    ((∃ segment, read s = .error (.noShape segment)) ↔
      ∃ segment, read s' = .error (.noShape segment)) ∧
    (∀ n, read s = .error (.tooManyDigits n) ↔ read s' = .error (.tooManyDigits n)) ∧
    ∀ q, read s = .ok q → ∃ q', read s' = .ok q' ∧ q.SameButCase q' := by
  -- the two outcomes meet in that of the segment in lower case
  have alike : lowered lowerCase (read s) = lowered lowerCase (read s') := by
    rw [← read_lower, ← read_lower, same]
  refine ⟨?_, fun n => ?_, fun q ok => ?_⟩
  · rw [← lowered_eq_noShape, alike, lowered_eq_noShape]
  · rw [← lowered_eq_tooManyDigits, alike, lowered_eq_tooManyDigits]
  · have low : lowered lowerCase (read s') = .ok q.lowerCase := by
      rw [← alike]
      exact lowered_eq_ok.mpr ⟨q, ok, rfl⟩
    obtain ⟨q', ok', lowers⟩ := lowered_eq_ok.mp low
    exact ⟨q', ok', sameButCase_of_lower lowers.symm⟩

/-- Flag, size and constant in one letter case and in the other. -/
theorem read_resetIf_any_case :
    lower "r:0xhAB=N.5.".toList = lower "R:0XHab=n.5.".toList ∧
      ∃ q q', read "r:0xhAB=N.5.".toList = .ok q ∧ read "R:0XHab=n.5.".toList = .ok q' ∧
        q.SameButCase q' ∧ q.left.value = "0x0000AB".toList ∧ q.right.value = "N".toList := by
  have same : lower "r:0xhAB=N.5.".toList = lower "R:0XHab=n.5.".toList := by decide
  have ok : read "r:0xhAB=N.5.".toList = .ok ⟨.resetIf, ⟨.mem, some .bits8, "0x0000AB".toList⟩, .eq,
      ⟨.value, none, "N".toList⟩, some 5⟩ := by decide +kernel
  obtain ⟨q', ok', alike⟩ := (read_any_case same).2.2 _ ok
  exact ⟨same, _, q', ok, ok', alike, rfl, rfl⟩

end Requirement
end MemLogic
