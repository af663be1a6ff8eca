import MemLogic.Proofs.Requirement.Sides

/-! Readings and spellings of a segment: each reading has a spelling, its flag and hit count are the
only ones that the segment allows, and the reader finds the reading with the longest left
operand. -/

namespace MemLogic.Requirement
open Text Operand.Spelling Spelling
namespace Reading

/-- The spelling of a reading has its pieces, each in its place. -/
structure SpelledAs (r : Reading) (s : Spelling) : Prop where
  flag : r.flag = [] ∧ s.flag = [] ∨
    ∃ c : Char, c.toUpper ∈ "PRABCDNOMQITZGK".toList ∧ r.flag = [c, ':'] ∧ s.flag = [c]
  sides : Sides (r.left ++ r.comparisonText) r.left r.comparison s.left s.comparison
  hits : r.hits = [] ∧ s.hits = none ∨ ∃ digits, HitCount digits r.hits ∧ s.hits = some digits

theorem comparisonText_eq (r : Reading) :
    r.comparisonText = Spelling.comparisonText r.comparison := by
  unfold comparisonText Spelling.comparisonText
  cases r.comparison <;> rfl

theorem isValid_iff (r : Reading) : r.IsValid ↔ ∃ s, r.SpelledAs s := by
  constructor
  · rintro ⟨flag, left, comparison, hits⟩
    obtain ⟨l, hl⟩ := (isOperand_iff _).mp left
    obtain ⟨c, hc⟩ : ∃ c, Spells r.comparison c := by
      cases h : r.comparison with
      | none => exact ⟨none, .none⟩
      | some pieces =>
        obtain ⟨symbol, right⟩ := pieces
        obtain ⟨comparator, operand⟩ := comparison symbol right h
        obtain ⟨s, hs⟩ := (isOperand_iff _).mp operand
        exact ⟨some (symbol, s), .some ((isComparator_iff _).mp comparator) hs⟩
    obtain ⟨f, hf⟩ : ∃ f, r.flag = [] ∧ f = [] ∨
        ∃ c : Char, c.toUpper ∈ "PRABCDNOMQITZGK".toList ∧ r.flag = [c, ':'] ∧ f = [c] := by
      rcases flag with h | ⟨c, letter, h⟩
      · exact ⟨[], .inl ⟨h, rfl⟩⟩
      · exact ⟨[c], .inr ⟨c, letter, h, rfl⟩⟩
    obtain ⟨d, hd⟩ : ∃ d, r.hits = [] ∧ d = none ∨
        ∃ digits, HitCount digits r.hits ∧ d = some digits := by
      rcases hits with h | h
      · exact ⟨none, .inl ⟨h, rfl⟩⟩
      · obtain ⟨digits, hit⟩ := (isHitCount_iff _).mp h
        exact ⟨some digits, .inr ⟨digits, hit, rfl⟩⟩
    exact ⟨⟨f, l, c, d⟩, hf, ⟨by rw [comparisonText_eq], hl, hc⟩, hd⟩
  · rintro ⟨s, flag, ⟨_, operand, spells⟩, hits⟩
    refine ⟨?_, (isOperand_iff _).mpr ⟨_, operand⟩, ?_, ?_⟩
    · rcases flag with ⟨h, _⟩ | ⟨c, letter, h, _⟩
      · exact .inl h
      · exact .inr ⟨c, letter, h⟩
    · intro symbol right h
      generalize s.comparison = c at spells
      rw [h] at spells
      cases spells with
      | some comparator operand =>
        exact ⟨(isComparator_iff _).mpr comparator, (isOperand_iff _).mpr ⟨_, operand⟩⟩
    · rcases hits with ⟨h, _⟩ | ⟨digits, hit, _⟩
      · exact .inl h
      · exact .inr ((isHitCount_iff _).mpr ⟨digits, hit⟩)

end Reading

namespace Spelling

theorem opening_mem : ∀ c ∈ ".(".toList, c ∈ ".()]".toList := by decide

theorem closing_mem : ∀ c ∈ ".)]".toList, c ∈ ".()]".toList := by decide

theorem HitCount.chars {digits h : Text} (hit : HitCount digits h) :
    ∀ c ∈ h, c.isDigit ∨ c ∈ ".()]".toList := by
  obtain ⟨o, cl, opening, closing, _, digit, rfl⟩ := hit
  intro c hc
  simp only [List.cons_append, List.mem_cons, List.mem_append, List.not_mem_nil, or_false] at hc
  rcases hc with rfl | hc | rfl
  · exact .inr (opening_mem c opening)
  · exact .inl (digit c hc)
  · exact .inr (closing_mem c closing)

theorem HitCount.colonless {digits h : Text} (hit : HitCount digits h) : ':' ∉ h :=
  fun member => absurd (hit.chars _ member) (by decide)

/-- An operand has one dot at most, and so does not end like a hit count. -/
theorem not_hitCount_of_shape {x y digits : Text} {s : Operand.Spelling}
    (shape : Shape (x ++ y) s) : ¬ HitCount digits y := by
  rintro ⟨o, c, opening, closing, _, _, rfl⟩
  have dots : ∀ d ∈ ".()]".toList, d ∈ x ++ (o :: digits ++ [c]) → d = '.' := by
    intro d hd member
    by_contra other
    have rest : d ∈ "()]".toList := by
      have all : ∀ d ∈ ".()]".toList, d = '.' ∨ d ∈ "()]".toList := by decide
      exact (all d hd).resolve_left other
    have outside : ∀ d ∈ "()]".toList, IsOutside d ∧ d ∉ ['+', '-'] := by decide
    exact shape.not_mem (outside d rest).1 (outside d rest).2 member
  obtain rfl := dots o (opening_mem o opening) (by simp)
  obtain rfl := dots c (closing_mem c closing) (by simp)
  have bound := shape.count_dot
  simp only [List.cons_append, List.count_append, List.count_cons, List.count_nil, BEq.rfl,
    if_true] at bound
  omega

variable {t left : Text} {comparison : Option (Text × Text)} {l : Operand.Spelling}
  {c : Option (Text × Operand.Spelling)}

/-- Operands and comparators hold neither colons nor brackets. -/
theorem Sides.not_mem (h : Sides t left comparison l c) {d : Char} (hd : IsOutside d)
    (other : ∀ symbol ∈ comparatorTokens, d ∉ symbol) : d ∉ t := by
  have unsigned : d ∉ ['+', '-'] := by
    intro member
    rcases List.mem_pair.mp member with rfl | rfl
    · exact other ['+'] (by decide) List.mem_cons_self
    · exact other ['-'] (by decide) List.mem_cons_self
  obtain ⟨rfl, operand, spells⟩ := h
  have first := (shape_of_read? operand).not_mem hd unsigned
  cases spells with
  | none => simpa [Spelling.comparisonText] using first
  | @some symbol right s comparator operand =>
    have last := (shape_of_read? operand).not_mem hd unsigned
    simp [Spelling.comparisonText, first, other symbol comparator, last]

theorem Sides.not_hitCount (h : Sides t left comparison l c) {x y digits : Text}
    (split : t = x ++ y) : ¬ HitCount digits y := by
  intro hit
  obtain ⟨rfl, operand, spells⟩ := h
  cases spells with
  | none =>
    rw [Spelling.comparisonText, List.append_nil] at split
    exact not_hitCount_of_shape (split ▸ shape_of_read? operand) hit
  | @some symbol right s comparator operand =>
    have split' : (left ++ symbol) ++ right = x ++ y := by
      simpa [Spelling.comparisonText] using split
    have shape := shape_of_read? operand
    rcases List.append_eq_append_iff.mp split' with ⟨a, _, rfl⟩ | ⟨a, front, rfl⟩
    · exact not_hitCount_of_shape shape hit
    · cases a with
      | nil => exact not_hitCount_of_shape (x := []) shape hit
      | cons e a =>
        obtain ⟨d, hd⟩ : ∃ d, symbol.getLast? = some d :=
          Option.ne_none_iff_exists'.mp (by simpa using comparatorTokens_ne_nil symbol comparator)
        have last := congrArg List.getLast? front
        rw [List.getLast?_append, List.getLast?_append, hd] at last
        have inside : d ∈ e :: a := List.mem_of_getLast? (by simpa using last.symm)
        have free : ∀ symbol ∈ comparatorTokens, ∀ d ∈ symbol,
            ¬ (d.isDigit ∨ d ∈ ".()]".toList) := by decide
        exact free symbol comparator d (List.mem_of_getLast? hd)
          (hit.chars d (List.mem_append_left _ inside))

/-- Sides do not end like a hit count. -/
theorem sides?_hitCount {h digits : Text} (hit : HitCount digits h) (t : Text) :
    sides? (t ++ h) = none := by
  cases found : sides? (t ++ h) with
  | none => rfl
  | some sides =>
    obtain ⟨left, comparison, cut, _⟩ := sides?_sound found
    exact absurd hit (cut.not_hitCount rfl)

theorem sides?_colon (colon : ':' ∈ t) : sides? t = none := by
  cases found : sides? t with
  | none => rfl
  | some sides =>
    obtain ⟨left, comparison, cut, _⟩ := sides?_sound found
    exact absurd colon (cut.not_mem (by decide) (by decide))

theorem mem_splitHits {d : Char} (outside : ∀ digits h, HitCount digits h → d ∉ h)
    (member : d ∈ t) : d ∈ (splitHits t).1 := by
  rcases splitHits_cases t with ⟨plain, _⟩ | ⟨x, y, digits, rfl, hit, taken⟩
  · rwa [plain]
  · rw [taken]
    exact (List.mem_append.mp member).resolve_right (outside digits y hit)

end Spelling

namespace Reading

variable {r r' : Reading} {s s' : Spelling}

/-- The flag and the hit count of a reading are those that are taken off. -/
theorem SpelledAs.splits (h : r.SpelledAs s) :
    splitFlag r.text = (s.flag, r.left ++ r.comparisonText ++ r.hits) ∧
      splitHits (r.left ++ r.comparisonText ++ r.hits) =
        (r.left ++ r.comparisonText, s.hits) := by
  have colonless : ':' ∉ r.left ++ r.comparisonText ++ r.hits := by
    intro member
    rcases List.mem_append.mp member with member | member
    · exact h.sides.not_mem (by decide) (by decide) member
    · rcases h.hits with ⟨empty, _⟩ | ⟨digits, hit, _⟩
      · rw [empty] at member
        exact List.not_mem_nil member
      · exact hit.colonless member
  constructor
  · rcases h.flag with ⟨empty, same⟩ | ⟨c, letter, flag, same⟩
    · rw [same, ← splitFlag_of_not_mem colonless]
      simp [text, empty]
    · rw [same, ← splitFlag_flag letter]
      simp [text, flag]
  · rcases h.hits with ⟨empty, same⟩ | ⟨digits, hit, same⟩
    · rw [empty, same, List.append_nil]
      exact splitHits_of_forall fun x y digits split => h.sides.not_hitCount split
    · rw [same]
      exact splitHits_append hit _

theorem SpelledAs.read?_ne_none (h : r.SpelledAs s) : Spelling.read? r.text ≠ none := by
  obtain ⟨flag, hits⟩ := h.splits
  simp only [Spelling.read?, flag, hits, ne_eq, Option.map_eq_none_iff]
  exact h.sides.sides?_ne_none

/-- Readings of one text differ in nothing but how the sides are cut. -/
theorem SpelledAs.same_body (h : r.SpelledAs s) (h' : r'.SpelledAs s') (text : r.text = r'.text) :
    s.flag = s'.flag ∧ r.left ++ r.comparisonText = r'.left ++ r'.comparisonText ∧
      r.hits = r'.hits := by
  have flags := h.splits.1
  rw [text, h'.splits.1] at flags
  obtain ⟨flag, rest⟩ := Prod.mk.inj flags
  have bodies := h.splits.2
  rw [← rest, h'.splits.2] at bodies
  have body : r'.left ++ r'.comparisonText = r.left ++ r.comparisonText :=
    congrArg Prod.fst bodies
  rw [body] at rest
  exact ⟨flag.symm, body.symm, (List.append_cancel_left rest).symm⟩

/-- There is no more to a reading than where its left operand ends. -/
theorem SpelledAs.unique (h : r.SpelledAs s) (h' : r'.SpelledAs s') (text : r.text = r'.text)
    (length : r.left.length = r'.left.length) : r = r' := by
  obtain ⟨flag, body, hits⟩ := h.same_body h' text
  obtain ⟨left, comparison⟩ := List.append_inj body length
  rw [comparisonText_eq, comparisonText_eq] at comparison
  have sides := h.sides.spells.injective h'.sides.spells comparison
  have same : r.flag = r'.flag := by
    rcases h.flag with ⟨a, b⟩ | ⟨c, _, a, b⟩ <;> rcases h'.flag with ⟨a', b'⟩ | ⟨c', _, a', b'⟩ <;>
      simp_all
  cases r
  cases r'
  simp_all

/-- The reader spells out the reading with the longest left operand. -/
theorem exists_longest {t : Text} (h : Spelling.read? t = some s) :
    ∃ r : Reading, r.text = t ∧ r.SpelledAs s ∧ ∀ (r' : Reading) (s' : Spelling),
      r'.SpelledAs s' → r'.text = t → r'.left.length ≤ r.left.length := by
  obtain ⟨sides, found, rfl⟩ := Option.map_eq_some_iff.mp h
  obtain ⟨left, comparison, cut, longest⟩ := sides?_sound found
  obtain ⟨flag, flagText, spelledFlag⟩ : ∃ f, t = f ++ (splitFlag t).2 ∧
      (f = [] ∧ (splitFlag t).1 = [] ∨ ∃ c : Char, c.toUpper ∈ "PRABCDNOMQITZGK".toList ∧
        f = [c, ':'] ∧ (splitFlag t).1 = [c]) := by
    rcases splitFlag_cases t with h | ⟨c, y, rfl, letter, h⟩
    · exact ⟨[], by rw [h]; rfl, .inl ⟨rfl, by rw [h]⟩⟩
    · exact ⟨[c, ':'], by rw [h]; rfl, .inr ⟨c, letter, rfl, by rw [h]⟩⟩
  obtain ⟨hits, hitsText, spelledHits⟩ : ∃ h, (splitFlag t).2 = (splitHits (splitFlag t).2).1 ++ h ∧
      (h = [] ∧ (splitHits (splitFlag t).2).2 = none ∨
        ∃ digits, HitCount digits h ∧ (splitHits (splitFlag t).2).2 = some digits) := by
    rcases splitHits_cases (splitFlag t).2 with ⟨h, _⟩ | ⟨x, y, digits, split, hit, h⟩
    · exact ⟨[], by rw [h, List.append_nil], .inl ⟨rfl, by rw [h]⟩⟩
    · exact ⟨y, by rw [h]; exact split, .inr ⟨digits, hit, by rw [h]⟩⟩
  refine ⟨⟨flag, left, comparison, hits⟩, ?_, ⟨spelledFlag, ?_, spelledHits⟩, ?_⟩
  · simp only [text, comparisonText_eq]
    rw [List.append_assoc flag, ← cut.text, List.append_assoc, ← hitsText, ← flagText]
  · simp only [comparisonText_eq, ← cut.text]
    exact cut
  · intro r' s' h' same
    have body : (splitHits (splitFlag t).2).1 = r'.left ++ r'.comparisonText := by
      rw [← same, h'.splits.1, h'.splits.2]
    exact longest _ _ _ _ (body ▸ h'.sides)

end Reading
end MemLogic.Requirement
