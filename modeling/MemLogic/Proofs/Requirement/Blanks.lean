import MemLogic.Proofs.Operand.Blanks
import MemLogic.Proofs.Requirement.Wrapping

/-! Blanks in requirements: only sizes hold them. A space at the end can be left out, except that
the sign before it may then begin a payload instead of comparing. -/

namespace MemLogic.Requirement
open Text MemLogic.Group Operand.Spelling

namespace Spelling

variable {v : Text} {l : Operand.Spelling} {c : Option (Text × Operand.Spelling)}

theorem HitCount.blanksMarked {digits h : Text} (hit : HitCount digits h) : BlanksMarked h := by
  refine blanksMarked_of_forall fun c hc => ?_
  rcases hit.chars c hc with digit | bracket
  · exact isBlank_of_isAlphanum (by simp [Char.isAlphanum, digit])
  · have all : ∀ c ∈ ".()]".toList, isBlank c = false := by decide
    exact all c bracket

theorem isBlank_of_flagLetter {c : Char} (letter : c.toUpper ∈ "PRABCDNOMQITZGK".toList) :
    isBlank c = false := by
  refine forall_of_ascii (fun c => c.toUpper ∈ "PRABCDNOMQITZGK".toList → isBlank c = false)
    (by decide +kernel) (fun c beyond member => ?_) c letter
  have low : ∀ d ∈ "PRABCDNOMQITZGK".toList, d.toNat < 128 := by decide
  rw [toUpper_of_le beyond] at member
  exact absurd (low c member) (by omega)

theorem comparatorTokens_blank : ∀ t ∈ comparatorTokens, ∀ c ∈ t, isBlank c = false := by decide

theorem Sides.blanksMarked {t left : Text} {comparison : Option (Text × Text)}
    (h : Sides t left comparison l c) : BlanksMarked t := by
  obtain ⟨rfl, operand, spells⟩ := h
  have first := (shape_of_read? operand).blanksMarked
  cases spells with
  | none => simpa [comparisonText] using first
  | some comparator operand =>
    have symbol := blanksMarked_of_forall (comparatorTokens_blank _ comparator)
    exact first.append (symbol.append (shape_of_read? operand).blanksMarked)

end Spelling
open Spelling

theorem Reading.SpelledAs.blanksMarked {r : Reading} {s : Spelling} (h : r.SpelledAs s) :
    BlanksMarked r.text := by
  have flag : BlanksMarked r.flag := by
    refine blanksMarked_of_forall fun c hc => ?_
    rcases h.flag with ⟨empty, _⟩ | ⟨d, letter, flag, _⟩
    · rw [empty] at hc
      exact absurd hc List.not_mem_nil
    · rw [flag] at hc
      rcases List.mem_pair.mp hc with rfl | rfl
      · exact isBlank_of_flagLetter letter
      · decide
  have hits : BlanksMarked r.hits := by
    rcases h.hits with ⟨empty, _⟩ | ⟨digits, hit, _⟩
    · exact empty ▸ blanksMarked_of_forall (by simp)
    · exact hit.blanksMarked
  have whole := (flag.append h.sides.blanksMarked).append hits
  rwa [← List.append_assoc] at whole

/-- Only sizes hold blanks. -/
theorem blanksMarked_of_read {s : Text} {q : Requirement} (h : read s = .ok q) :
    BlanksMarked s := by
  obtain ⟨spelling, found, _⟩ := read_eq_ok.mp h
  obtain ⟨r, longest, spelled⟩ := Reading.exists_isLongest found
  exact longest.text ▸ spelled.blanksMarked

namespace Spelling

variable {v : Text} {l : Operand.Spelling} {c : Option (Text × Operand.Spelling)}

/-- A left operand without a payload, a sign, and the mark of a size behind one letter at most. -/
def LooseSign (v : Text) : Prop :=
  ∃ left sign mark k, v = left ++ sign :: (mark ++ k) ∧
    (∃ m size, Operand.Spelling.read? left = some (.plain m size [])) ∧
      (sign = '+' ∨ sign = '-') ∧
        (mark = [] ∨ ∃ c : Char, c.toLower ∈ "dpbfv".toList ∧ mark = [c]) ∧
          lower k = "0x".toList

/-- Sides that end in a space end in a size without a payload. -/
theorem sides?_space (h : sides? (v ++ [' ']) = some (l, c)) : ∃ m x k, IsMark m x ∧
    lower k = "0x".toList ∧ (v = x ++ k ∧ l = .plain m (k ++ [' ']) [] ∧ c = none ∨
      ∃ left symbol, symbol ∈ comparatorTokens ∧ v = left ++ (symbol ++ (x ++ k)) ∧
        Operand.Spelling.read? left = some l ∧ c = some (symbol, .plain m (k ++ [' ']) [])) := by
  obtain ⟨left, comparison, ⟨text, operand, spells⟩, _⟩ := sides?_sound h
  cases spells with
  | none =>
    rw [comparisonText, List.append_nil] at text
    rw [← text] at operand
    obtain ⟨m, x, k, mark, hex, split, same⟩ := (shape_of_read? operand).exists_of_space
    exact ⟨m, x, k, mark, hex, .inl ⟨split, same, rfl⟩⟩
  | @some symbol right s comparator right? =>
    have free : ' ' ∉ symbol := fun member =>
      absurd (comparatorTokens_blank symbol comparator _ member) (by decide)
    rcases List.eq_nil_or_concat right with rfl | ⟨w, d, rfl⟩
    · have whole : left ++ symbol = v ++ [' '] := by simpa [comparisonText] using text.symm
      have empty := eq_nil_of_append_eq_space whole free
      exact absurd empty (comparatorTokens_ne_nil symbol comparator)
    · rw [List.concat_eq_append] at text right?
      have whole : v ++ [' '] = (left ++ (symbol ++ w)) ++ [d] := by
        simpa [comparisonText] using text
      obtain ⟨rfl, last⟩ := List.append_inj' whole rfl
      obtain rfl := List.singleton_inj.mp last
      obtain ⟨m, x, k, mark, hex, rfl, rfl⟩ := (shape_of_read? right?).exists_of_space
      exact ⟨m, x, k, mark, hex, .inr ⟨left, symbol, comparator, rfl, operand, rfl⟩⟩

theorem letter_or_tilde {m : Option Modifier} {x : Text} (mark : IsMark m x) :
    (x = [] ∨ ∃ c : Char, c.toLower ∈ "dpbfv".toList ∧ x = [c]) ∨ x = ['~'] := by
  cases m with
  | none => exact .inl (.inl mark)
  | some m =>
    obtain ⟨c, hc, rfl⟩ := mark
    have all : ∀ d ∈ markLetters, d ∈ "dpbfv".toList ∨ d = '~' := by decide
    rcases all _ (toLower_mem_of_ofChar? hc) with letter | tilde
    · exact .inl (.inr ⟨c, letter, rfl⟩)
    · rw [toLower_eq_iff (by decide)] at tilde
      exact .inr (by rw [tilde])

/-- No payload goes beyond a tilde, so that the sign before it is a comparator. -/
theorem sides?_tilde {left k : Text} {d : Char} {m : Option Modifier} {r : Operand.Spelling}
    {size : Text} (bare : Operand.Spelling.read? left = some (.plain m size []))
    (signed : d = '+' ∨ d = '-') (right : Operand.Spelling.read? ('~' :: k) = some r) :
    sides? (left ++ d :: '~' :: k) = some (.plain m size [], some ([d], r)) := by
  have outside : IsOutside d := by rcases signed with rfl | rfl <;> decide
  have payload : (splitPayload (d :: '~' :: k)).2 = '~' :: k := by
    have word : splitWord ('~' :: k) = ([], '~' :: k) := rfl
    simp only [splitPayload, splitSign_sign signed, word]
    rfl
  have other : comparison? ('~' :: k) = none := by
    cases found : comparison? ('~' :: k) with
    | none => rfl
    | some compared =>
      obtain ⟨comparison, text, spells⟩ := comparison?_eq_some.mp found
      cases spells with
      | none => exact absurd text (by simp [comparisonText])
      | @some symbol _ _ comparator _ =>
        obtain ⟨e, more, rfl⟩ := List.exists_cons_of_ne_nil (comparatorTokens_ne_nil _ comparator)
        obtain ⟨rfl, _⟩ := List.cons.inj text
        have all : ∀ t ∈ comparatorTokens, '~' ∉ t := by decide
        exact absurd List.mem_cons_self (all _ comparator)
  have front := splitFront_bare_append bare outside ('~' :: k)
  have sign := signComparison?_of_front (by rw [front]) signed right
  rw [front] at sign
  simp only [sides?, scan_bare_sign bare signed, payload, other, sign]

/-- Without its space a lone size is read as before, with one behind a comparator the same unless
the comparator is a sign that a left payload can begin with. -/
theorem sides?_without_space (h : sides? (v ++ [' ']) = some (l, c)) : LooseSign v ∨
    ∃ l' c', sides? v = some (l', c') ∧
      ∀ f hits, requirement ⟨f, l', c', hits⟩ = requirement ⟨f, l, c, hits⟩ := by
  obtain ⟨m, x, k, mark, hex, ⟨rfl, rfl, rfl⟩ | ⟨left, symbol, comparator, rfl, operand, rfl⟩⟩ :=
    sides?_space h
  · right
    have alone := read?_eq_some.mp (read?_hexMark mark hex)
    refine ⟨.plain m k [], none, by simp [sides?, alone, comparison?], fun f hits => ?_⟩
    simp only [requirement, operand_space hex]
  · have right? := read?_hexMark mark hex
    have spells : Spells (some (symbol, x ++ k)) (some (symbol, .plain m k [])) :=
      .some comparator right?
    have alike (f : Text) (hits : Option Text) :
        requirement ⟨f, l, some (symbol, .plain m k []), hits⟩ =
          requirement ⟨f, l, some (symbol, .plain m (k ++ [' ']) []), hits⟩ := by
      simp only [requirement, Option.map_some, operand_space hex]
    rcases (Sides.mk rfl operand spells).scan_or_sign with
      scanned | ⟨d, right, s, signed, same, _, front⟩
    · right
      refine ⟨l, some (symbol, .plain m k []), ?_, alike⟩
      have compared := comparison?_eq_some.mpr ⟨_, rfl, spells⟩
      have scanned' : scan (left ++ (symbol ++ (x ++ k))) = (l, symbol ++ (x ++ k)) := scanned
      have compared' : comparison? (symbol ++ (x ++ k)) = some (some (symbol, .plain m k [])) :=
        compared
      simp only [sides?, scanned', compared']
    · obtain ⟨rfl, rfl⟩ := Prod.mk.inj (Option.some.inj same)
      have bare := read?_eq_some.mpr (scan_front front)
      rcases letter_or_tilde mark with letter | rfl
      · exact .inl ⟨left, d, x, k, rfl, ⟨_, _, bare⟩, signed, letter, hex⟩
      · right
        obtain rfl := Option.some.inj (operand.symm.trans bare)
        exact ⟨_, _, sides?_tilde bare signed right?, alike⟩

theorem isAlphanum_letter {mark : Text}
    (letter : mark = [] ∨ ∃ c : Char, c.toLower ∈ "dpbfv".toList ∧ mark = [c]) :
    ∀ c ∈ mark, c.isAlphanum := by
  rcases letter with rfl | ⟨e, known, rfl⟩
  · simp
  · have all : ∀ e ∈ "dpbfv".toList, e.isAlphanum := by decide
    intro c hc
    rw [List.mem_singleton.mp hc, ← isAlphanum_toLower]
    exact all _ known

/-- What the sign begins is a payload. -/
theorem LooseSign.read? (h : LooseSign v) : ∃ l, Operand.Spelling.read? v = some l := by
  obtain ⟨left, d, mark, k, rfl, ⟨m, size, bare⟩, signed, letter, hex⟩ := h
  have word : ∀ c ∈ mark ++ k, c.isAlphanum := by
    intro c hc
    exact (List.mem_append.mp hc).elim (isAlphanum_letter letter c) (isAlphanum_hexMark hex c)
  have payload : IsPayload (d :: (mark ++ k)) :=
    ⟨[d], mark ++ k, [], by simp, .inr (by simpa using signed), word, .inl rfl⟩
  refine ⟨.plain m size (d :: (mark ++ k)), read?_eq_some.mpr ?_⟩
  rw [scan_bare_sign bare signed, splitPayload_eq payload]

theorem LooseSign.endsInHexMark (h : LooseSign v) : EndsInHexMark v := by
  obtain ⟨left, d, mark, k, rfl, _, _, _, hex⟩ := h
  have whole := (endsInHexMark_of_lower hex).append_left (left ++ d :: mark)
  simpa using whole

/-- No decimal literal ends in a letter, and no other operand fails. -/
theorem LooseSign.operand (h : LooseSign v) :
    ∃ l o, sides? v = some (l, none) ∧ l.operand = .ok o := by
  obtain ⟨l, found⟩ := h.read?
  have sides : sides? v = some (l, none) := by
    simp only [sides?, read?_eq_some.mp found]
    rfl
  cases outcome : l.operand with
  | ok o => exact ⟨l, o, sides, outcome⟩
  | error e =>
    obtain ⟨n, _, rfl⟩ := (shape_of_read? found).operand_tooManyDigits outcome
    rw [← Operand.read_eq_operand found] at outcome
    obtain ⟨digits, ⟨mark, sign, _, _, nonempty, digit, same⟩, _⟩ :=
      Operand.read_eq_tooManyDigits.mp outcome
    have last : v.getLast? = some (digits.getLast nonempty) := by
      rw [same, ← List.append_assoc, List.getLast?_append, List.getLast?_eq_some_getLast nonempty]
      rfl
    have letter := h.endsInHexMark.getLast? _ last
    have ends := digit _ (List.getLast_mem nonempty)
    rcases letter with same | same
    · exact absurd ends (by rw [same]; decide)
    · exact absurd ends (by rw [same]; decide)

/-- With the space, the sign is the comparator: no other is in the text. -/
theorem LooseSign.compares (h : LooseSign v) (found : sides? (v ++ [' ']) = some (l, c)) :
    ∃ symbol o, c = some (symbol, o) ∧ Comparator.ofSymbol symbol ≠ .ok .eq := by
  obtain ⟨left, d, mark, k, rfl, ⟨m, size, bare⟩, signed, letter, hex⟩ := h
  have free {e : Char} (outside : IsOutside e) : e ∉ mark ∧ e ∉ k :=
    ⟨outside.not_mem_word (isAlphanum_letter letter), outside.not_mem_word (isAlphanum_hexMark hex)⟩
  have unlike : d ≠ '=' := by
    rintro rfl
    exact absurd signed (by decide)
  have equalless : '=' ∉ left ++ d :: (mark ++ k) := by
    have first := (shape_of_read? bare).not_mem (d := '=') (by decide) (by decide)
    simp [first, unlike.symm, free (e := '=') (by decide)]
  obtain ⟨m', x, k', marked, hex', ⟨split, _, _⟩ | ⟨left', symbol, comparator, split, _, rfl⟩⟩ :=
    sides?_space found
  · have outside : IsOutside d := by rcases signed with rfl | rfl <;> decide
    have member : d ∈ x ++ k' := by
      rw [← split]
      simp
    exact ((List.mem_append.mp member).elim (marked.not_mem outside)
      (outside.not_mem_word (isAlphanum_hexMark hex'))).elim
  · refine ⟨symbol, _, rfl, ?_⟩
    have all : ∀ t ∈ comparatorTokens, '=' ∉ t → Comparator.ofSymbol t ≠ .ok .eq := by decide
    refine all symbol comparator fun member => equalless ?_
    rw [split]
    simp [member]

/-- What ends no hit count ends with none. -/
theorem splitHits_concat {d : Char} (other : d ∉ ".)]".toList) (x : Text) :
    splitHits (x ++ [d]) = (x ++ [d], none) := by
  rcases splitHits_cases (x ++ [d]) with ⟨plain, _⟩ | ⟨y, z, digits, split, hit, _⟩
  · exact plain
  · obtain ⟨o, e, _, closing, _, _, rfl⟩ := hit
    have whole : x ++ [d] = (y ++ o :: digits) ++ [e] := by simpa using split
    obtain ⟨_, last⟩ := List.append_inj' whole rfl
    exact absurd (List.singleton_inj.mp last ▸ closing) other

theorem splitHits_hexMark (h : EndsInHexMark v) : splitHits v = (v, none) := by
  rcases List.eq_nil_or_concat v with rfl | ⟨x, d, rfl⟩
  · rfl
  · rw [List.concat_eq_append] at h ⊢
    refine splitHits_concat ?_ x
    rcases h.getLast? d (by simp) with rfl | rfl <;> decide

end Spelling

variable {s : Text} {q : Requirement}

/-- A loose sign, behind a flag or without one. -/
def HasLooseSign (s : Text) : Prop :=
  ∃ flag v, s = flag ++ v ∧ (flag = [] ∨ Reading.IsFlag flag) ∧ LooseSign v

theorem hasLooseSign_iff : HasLooseSign s ↔ LooseSign (splitFlag s).2 := by
  constructor
  · rintro ⟨flag, v, rfl, flagged, loose⟩
    have colonless : ':' ∉ v := by
      obtain ⟨l, o, sides, _⟩ := loose.operand
      exact fun colon => absurd sides (by simp [sides?_colon colon])
    rcases flagged with rfl | ⟨c, letter, rfl⟩
    · rwa [List.nil_append, splitFlag_of_not_mem colonless]
    · have taken := splitFlag_flag letter v
      rwa [List.cons_append, List.singleton_append, taken]
  · intro loose
    rcases splitFlag_cases s with plain | ⟨c, v, rfl, letter, taken⟩
    · rw [plain] at loose
      exact ⟨[], s, rfl, .inl rfl, loose⟩
    · rw [taken] at loose
      exact ⟨[c, ':'], v, rfl, .inr ⟨c, letter, rfl⟩, loose⟩

/-- The space at the end of a segment can be left out, and changes what is read exactly where a
sign becomes loose. -/
theorem read_space (h : read (s ++ [' ']) = .ok q) :
    ∃ q', read s = .ok q' ∧ (q' = q ↔ ¬ HasLooseSign s) := by
  obtain ⟨spelling, found, parts⟩ := read_eq_ok.mp h
  rw [Spelling.read?, splitFlag_append (by decide), splitHits_concat (by decide)] at found
  obtain ⟨⟨l, c⟩, sides, rfl⟩ := Option.map_eq_some_iff.mp found
  have marked : EndsInHexMark (splitFlag s).2 := by
    obtain ⟨left, comparison, cut, _⟩ := sides?_sound sides
    exact (cut.blanksMarked _ ' ' [] rfl (by decide)).2
  have spelled (sides' : Operand.Spelling × Option (Text × Operand.Spelling))
      (without : sides? (splitFlag s).2 = some sides') :
      Spelling.read? s = some ⟨(splitFlag s).1, sides'.1, sides'.2, none⟩ := by
    simp only [Spelling.read?, splitHits_hexMark marked, without]
    rfl
  rw [hasLooseSign_iff]
  by_cases loose : LooseSign (splitFlag s).2
  · obtain ⟨l', o, without, operand⟩ := loose.operand
    obtain ⟨symbol, r, rfl, unequal⟩ := loose.compares sides
    obtain ⟨flag, _, comparator, _, hits⟩ := requirement_eq_ok.mp parts
    refine ⟨⟨q.flag, o, .eq, .blank, q.hits⟩, read_eq_ok.mpr ⟨_, spelled _ without,
      requirement_eq_ok.mpr ⟨flag, operand, rfl, rfl, hits⟩⟩, ?_⟩
    refine ⟨fun same => ?_, fun tight => absurd loose tight⟩
    rw [← same] at comparator
    exact absurd comparator unequal
  · obtain ⟨l', c', without, alike⟩ := (sides?_without_space sides).resolve_left loose
    refine ⟨q, read_eq_ok.mpr ⟨_, spelled _ without, ?_⟩, by simp [loose]⟩
    rw [alike]
    exact parts

end MemLogic.Requirement
