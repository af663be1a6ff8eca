import MemLogic.Proofs.Operand.Preference
import MemLogic.Proofs.Requirement.LongestReading
import MemLogic.Requirement.Grammar

/-! The requirement grammar as ordered choice against the reader: the first way to take a whole
segment has the flag and the hit count that the reader takes off, and between them the longest left
operand. -/

namespace MemLogic.Requirement.Grammar
open Text Operand.Grammar Pattern Spelling
open Operand.Spelling (scan splitFront)

variable {t r symbol right : Text} {s l : Operand.Spelling}
  {c : Option (Text × Operand.Spelling)}

theorem mem_hits {digits : Text} : (digits, []) ∈ hits t ↔ HitCount digits t := by
  have opens : ∀ o : Char, o ∈ ".(".toList ↔ o = '.' ∨ o = '(' := by simp
  have closes : ∀ e : Char, e ∈ ".)]".toList ↔ (e = '.' ∨ e = ')') ∨ e = ']' := by simp [or_assoc]
  simp only [hits, mem_andThen, mem_one, mem_many1, mem_yield, HitCount, opens, closes,
    Bool.or_eq_true, beq_iff_eq]
  constructor
  · rintro ⟨o, _, ⟨rfl, opening⟩, digits, _, ⟨rfl, nonempty, row⟩, e, _, ⟨rfl, closing⟩, rfl, rfl⟩
    exact ⟨o, e, opening, closing, nonempty, row, rfl⟩
  · rintro ⟨o, e, opening, closing, nonempty, row, rfl⟩
    exact ⟨o, _, ⟨rfl, opening⟩, digits, _, ⟨rfl, nonempty, row⟩, e, [], ⟨rfl, closing⟩, rfl, rfl⟩

theorem whole?_hits (t : Text) : whole? hits t = hitDigits? t :=
  whole?_eq_of_forall fun _ => mem_hits.trans hitDigits?_eq_some.symm

/-- A comparison begins with nothing that an operand before it could go on with. -/
theorem stopsAt_comparison (h : comparison? r = some c) :
    StopsAt Char.isAlphanum r ∧ r.head? ≠ some '.' := by
  obtain ⟨pieces, rfl, spells⟩ := comparison?_eq_some.mp h
  cases spells with
  | none => simp [comparisonText]
  | @some symbol right s comparator operand =>
    obtain ⟨d, more, rfl⟩ := List.exists_cons_of_ne_nil (comparatorTokens_ne_nil symbol comparator)
    have outside := comparatorTokens_outside _ comparator d List.mem_cons_self
    refine ⟨stopsAt_cons.mpr outside.1, ?_⟩
    rintro first
    obtain rfl := Option.some.inj first
    exact absurd outside (by decide)

theorem whole?_operand (t : Text) : whole? operand t = Operand.Spelling.read? t :=
  Operand.Grammar.read?_eq t

/-- A comparator is never given back for the shorter one that it starts with: what is left begins
no operand then. -/
theorem whole?_comparison_append (comparator : symbol ∈ comparatorTokens)
    (read : Operand.Spelling.read? right = some s) :
    whole? comparison (symbol ++ right) = some (symbol, s) := by
  have alone : whole? (token comparatorTokens) symbol = some symbol := by
    refine whole?_eq_some ?_ fun w member => ?_
    · exact mem_token.mpr ⟨(List.append_nil _).symm, lower_mem_comparatorTokens.mpr comparator⟩
    · rw [(mem_token.mp member).1, List.append_nil]
  have only : ∀ e ∈ token comparatorTokens (symbol ++ right),
      whole? operand e.2 ≠ none → e.2 = right := by
    rintro ⟨w, rest⟩ member taken
    rw [whole?_operand] at taken
    obtain ⟨text, known⟩ := mem_token.mp member
    obtain ⟨s', read'⟩ := Option.ne_none_iff_exists'.mp taken
    have cut := splitComparator_operand (lower_mem_comparatorTokens.mp known) read'
    rw [← text, splitComparator_operand comparator read] at cut
    exact (Prod.mk.inj cut).2.symm
  rw [comparison, whole?_both (IsLocal.token _ _) only, alone, whole?_operand, read]
  rfl

theorem spells_of_whole?_comparison (h : whole? comparison t = some (symbol, s)) :
    ∃ right, t = symbol ++ right ∧ Spells (some (symbol, right)) (some (symbol, s)) := by
  rw [comparison, whole?_both_eq] at h
  obtain ⟨⟨w, right⟩, member, taken⟩ := List.exists_of_findSome?_eq_some h
  rw [whole?_operand] at taken
  obtain ⟨s', read, same⟩ := Option.map_eq_some_iff.mp taken
  obtain ⟨rfl, rfl⟩ := Prod.mk.inj same
  obtain ⟨text, known⟩ := mem_token.mp member
  exact ⟨right, text, .some (lower_mem_comparatorTokens.mp known) read⟩

theorem whole?_optional_comparison (t : Text) :
    whole? (optional comparison) t = comparison? t := by
  rw [whole?_optional]
  cases found : whole? comparison t with
  | some pieces =>
    obtain ⟨right, text, spells⟩ := spells_of_whole?_comparison found
    exact (comparison?_eq_some.mpr ⟨_, text, spells⟩).symm
  | none =>
    rw [Option.map_none, Option.none_or]
    split
    · rename_i empty
      rw [empty]
      rfl
    · rename_i nonempty
      symm
      by_contra other
      obtain ⟨c, compared⟩ := Option.ne_none_iff_exists'.mp other
      obtain ⟨pieces, rfl, spells⟩ := comparison?_eq_some.mp compared
      cases spells with
      | none => exact nonempty rfl
      | some comparator operand =>
        have taken := whole?_comparison_append comparator operand
        exact Option.some_ne_none _ (taken.symm.trans found)

/-- A left operand with what a comparison follows is a way to cut the sides. -/
theorem exists_sides (member : (l, r) ∈ operand t) (h : comparison? r = some c) :
    ∃ left comparison l', comparisonText comparison = r ∧ Sides t left comparison l' c := by
  obtain ⟨pieces, rfl, spells⟩ := comparison?_eq_some.mp h
  have before := isLocal_operand (stopsAt_comparison h).1
  obtain ⟨left, rfl⟩ := before.suffix t _ member
  have alone : (l, []) ∈ operand left := before.mem_append.mp member
  have shaped : Operand.Spelling.read? left ≠ none := by
    rw [← whole?_operand]
    exact fun refused => whole?_eq_none.mp refused l alone
  obtain ⟨l', read⟩ := Option.ne_none_iff_exists'.mp shaped
  exact ⟨left, pieces, l', rfl, rfl, read, spells⟩

/-- Where nothing can follow the operand that is scanned, a comparison can follow only the one that
ends before the sign. -/
theorem eq_front_of_comparison (found : comparison? (scan t).2 = none)
    (member : (l, r) ∈ operand t) (compared : comparison? r = some c) : (splitFront t).2 = r := by
  obtain ⟨left, comparison, l', rest, cut⟩ := exists_sides member compared
  rcases cut.scan_or_sign with scanned | ⟨d, right, s, _, rfl, _, front⟩
  · rw [scanned, rest, compared] at found
    exact absurd found (Option.some_ne_none _)
  · rw [← rest, front]
    rfl

theorem whole?_sides_eq (t : Text) : whole? sides t = (operand t).findSome? fun e =>
    (comparison? e.2).map fun c => (e.1, c) := by
  simp only [sides, whole?_both_eq, whole?_optional_comparison]

/-- The left operand is as long as can be where a comparison can follow it then. -/
theorem whole?_sides_scan (found : comparison? (scan t).2 = some c) :
    whole? sides t = some ((scan t).1, c) := by
  obtain ⟨before, more, scanned, dotted⟩ := operand_scan t
  have skipped : before.findSome? (fun e => (comparison? e.2).map fun c => (e.1, c)) = none := by
    refine List.findSome?_eq_none_iff.mpr fun e member => Option.map_eq_none_iff.mpr ?_
    by_contra other
    obtain ⟨c, compared⟩ := Option.ne_none_iff_exists'.mp other
    exact (stopsAt_comparison compared).2 (dotted e member)
  rw [whole?_sides_eq, scanned, List.findSome?_append, skipped, Option.none_or,
    List.findSome?_cons]
  simp only [found, Option.map_some]

/-- Where none can, the left operand is given back up to its sign, which is then the comparator. -/
theorem whole?_sides_sign (found : comparison? (scan t).2 = none)
    (signed : signComparison? t = some (l, c)) : whole? sides t = some (l, c) := by
  obtain ⟨left, pieces, cut, front⟩ := signComparison?_sound signed
  have compared := comparison?_eq_some.mpr ⟨pieces, rfl, cut.spells⟩
  have here := isLocal_operand (stopsAt_comparison compared).1
  have only : ∀ e ∈ operand (left ++ comparisonText pieces),
      whole? (optional comparison) e.2 ≠ none → e.2 = comparisonText pieces := by
    intro e member taken
    rw [whole?_optional_comparison] at taken
    obtain ⟨c', compared'⟩ := Option.ne_none_iff_exists'.mp taken
    rw [← cut.text] at member
    rw [← front, eq_front_of_comparison found member compared']
  rw [cut.text, sides, whole?_both here only, whole?_operand, cut.operand,
    whole?_optional_comparison, compared]
  rfl

theorem whole?_sides (t : Text) : whole? sides t = sides? t := by
  cases found : comparison? (scan t).2 with
  | some c =>
    rw [whole?_sides_scan found]
    simp only [sides?, found]
  | none =>
    have reads : sides? t = signComparison? t := by
      simp only [sides?, found]
    cases signed : signComparison? t with
    | some pieces => rw [whole?_sides_sign found signed, reads, signed]
    | none =>
      rw [whole?_sides_eq, reads, signed]
      refine List.findSome?_eq_none_iff.mpr fun e member => Option.map_eq_none_iff.mpr ?_
      by_contra other
      obtain ⟨c, compared⟩ := Option.ne_none_iff_exists'.mp other
      obtain ⟨left, comparison, l, _, cut⟩ := exists_sides member compared
      exact cut.sides?_ne_none (reads.trans signed)

theorem isLocal_sides (stop : StopsAt Char.isAlphanum r) : IsLocal sides r :=
  (isLocal_operand stop).both ((IsLocal.token _ r).both (isLocal_operand stop)).optional

theorem whole?_optional_hits (r : Text) : whole? (optional hits) r =
    ((hitDigits? r).map some).or (if r = [] then some none else none) := by
  rw [whole?_optional, whole?_hits]

theorem exists_hitCount (h : whole? (optional hits) r ≠ none) :
    r = [] ∨ ∃ digits, HitCount digits r := by
  rw [whole?_optional_hits] at h
  cases found : hitDigits? r with
  | some digits => exact .inr ⟨digits, hitDigits?_eq_some.mp found⟩
  | none =>
    left
    by_contra nonempty
    exact h (by simp [found, nonempty])

theorem stopsAt_hitCount {digits : Text} (hit : HitCount digits r) :
    StopsAt Char.isAlphanum r := by
  obtain ⟨o, _, opening, _, _, _, rfl⟩ := hit
  have all : ∀ o ∈ ".(".toList, o.isAlphanum = false := by decide
  exact stopsAt_cons.mpr (all o opening)

/-- What ends like a hit count has one behind its sides. -/
theorem whole?_body_append {digits : Text} (hit : HitCount digits r) (x : Text) :
    whole? (both sides (optional hits)) (x ++ r) =
      (sides? x).map fun sides => (sides, some digits) := by
  have here := isLocal_sides (stopsAt_hitCount hit)
  have only : ∀ e ∈ sides (x ++ r), whole? (optional hits) e.2 ≠ none → e.2 = r := by
    rintro ⟨e, rest⟩ member taken
    rcases exists_hitCount taken with rfl | ⟨digits', hit'⟩
    · have refused := (whole?_sides (x ++ r)).trans (sides?_hitCount hit x)
      exact absurd member (whole?_eq_none.mp refused e)
    · obtain ⟨y, text⟩ := here.suffix (x ++ r) _ member
      have same := splitHits_append hit' y
      rw [text, splitHits_append hit x] at same
      rw [(Prod.mk.inj same).1] at text
      exact List.append_cancel_left text
  rw [whole?_both here only, whole?_sides, whole?_optional_hits, hitDigits?_eq_some.mpr hit]
  cases sides? x <;> rfl

/-- What does not end like a hit count is all sides. -/
theorem whole?_body_of_forall (free : ∀ x y digits, t = x ++ y → ¬ HitCount digits y) :
    whole? (both sides (optional hits)) t = (sides? t).map fun sides => (sides, none) := by
  have here := isLocal_sides (stopsAt_nil _)
  have only : ∀ e ∈ sides (t ++ []), whole? (optional hits) e.2 ≠ none → e.2 = [] := by
    intro e member taken
    rw [List.append_nil] at member
    obtain ⟨y, text⟩ := here.suffix t e member
    refine (exists_hitCount taken).resolve_right ?_
    rintro ⟨digits, hit⟩
    exact free y e.2 digits text.symm hit
  have body := whole?_both here only
  rw [List.append_nil, whole?_sides, whole?_optional_hits] at body
  rw [body]
  cases sides? t <;> rfl

theorem whole?_body (t : Text) : whole? (both sides (optional hits)) t =
    (sides? (splitHits t).1).map fun sides => (sides, (splitHits t).2) := by
  rcases splitHits_cases t with ⟨split, free⟩ | ⟨x, r, digits, rfl, hit, split⟩
  · rw [split, whole?_body_of_forall free]
  · rw [split, whole?_body_append hit x]

/-- The pattern takes a flag in one way at most, and where the reader does. -/
theorem flag_eq (t : Text) : flag t = if (splitFlag t).1 = [] then [] else [splitFlag t] := by
  match t with
  | [] => rfl
  | [c] => by_cases letter : c.toLower ∈ flagLetters <;>
      simp [flag, andThen, one, splitFlag, letter]
  | c :: d :: r =>
    by_cases letter : c.toLower ∈ flagLetters <;> by_cases colon : d = ':' <;>
      simp [flag, andThen, one, splitFlag, letter, colon, yield]

/-- The pattern and the reader agree on every text. -/
theorem read?_eq (t : Text) : read? t = Spelling.read? t := by
  have order : read? t = (optional flag t).findSome? fun e =>
      (sides? (splitHits e.2).1).map fun sides =>
        ⟨e.1.getD [], sides.1, sides.2, (splitHits e.2).2⟩ := by
    rw [read?, requirement, whole?_andThen_eq]
    simp only [whole?_map, whole?_body, Option.map_map]
    rfl
  rw [order, Pattern.optional, flag_eq, Spelling.read?]
  rcases splitFlag_cases t with split | ⟨c, r, rfl, _, split⟩
  · simp [split]
  · -- with the flag given back its colon would stand in the sides
    have unflagged : sides? (splitHits (c :: ':' :: r)).1 = none :=
      sides?_colon (mem_splitHits (fun _ _ hit => hit.colonless) (by simp))
    cases flagged : sides? (splitHits r).1 with
    | some sides => simp [split, flagged]
    | none => simp [split, flagged, unflagged]

/-- The sign is given back to be the comparator, as no payload goes on with a brace. -/
example : read? "0x-\x7brecall\x7d.7.".toList =
    some ⟨[], .plain none "0x".toList [], some ("-".toList, .recalled), some "7".toList⟩ := by
  decide

/-- The pattern takes a whole segment just where that has a reading, and of its readings it prefers
the one with the longest left operand. -/
theorem read?_isLongest (t : Text) :
    (read? t = none ↔ ¬ ∃ r : Reading, r.IsValid ∧ r.text = t) ∧
      ∀ s, read? t = some s → ∃ r : Reading, r.IsLongest t ∧ r.SpelledAs s := by
  rw [read?_eq]
  exact ⟨Reading.read?_eq_none_iff, fun _ => Reading.exists_isLongest⟩

end MemLogic.Requirement.Grammar
