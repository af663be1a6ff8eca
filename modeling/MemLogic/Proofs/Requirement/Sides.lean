import MemLogic.Proofs.Operand.Resolution
import MemLogic.Proofs.Requirement.Pieces

/-! The sides of a requirement: of all ways to cut a text into one operand, or into two with a
comparator between them, the one with the longest left operand is read. -/

namespace MemLogic.Requirement
open Text Operand.Spelling

theorem isOperand_iff (t : Text) :
    Reading.IsOperand t ↔ ∃ s, Operand.Spelling.read? t = some s := by
  rw [← Option.ne_none_iff_exists']
  constructor
  · intro h fails
    exact h t (Operand.read_eq_noShape.mpr ⟨fails, rfl⟩)
  · intro h segment fails
    exact h (Operand.read_eq_noShape.mp fails).1

namespace Spelling

/-- What follows a left operand: a comparator with a right operand, or nothing. -/
def comparisonText : Option (Text × Text) → Text
  | some (symbol, right) => symbol ++ right
  | none => []

/-- The comparison as written and as spelled. -/
inductive Spells : Option (Text × Text) → Option (Text × Operand.Spelling) → Prop where
  | none : Spells none none
  | some {symbol right : Text} {s : Operand.Spelling} (comparator : symbol ∈ comparatorTokens)
    (operand : Operand.Spelling.read? right = some s) :
    Spells (some (symbol, right)) (some (symbol, s))

/-- A text cut into sides, with their spellings. -/
structure Sides (t left : Text) (comparison : Option (Text × Text)) (l : Operand.Spelling)
    (c : Option (Text × Operand.Spelling)) : Prop where
  text : t = left ++ comparisonText comparison
  operand : Operand.Spelling.read? left = some l
  spells : Spells comparison c

theorem shape_of_read? {t : Text} {s : Operand.Spelling} (h : Operand.Spelling.read? t = some s) :
    Shape t s :=
  shape_of_scan (read?_eq_some.mp h)

theorem splitComparator_operand {symbol right : Text} {s : Operand.Spelling}
    (comparator : symbol ∈ comparatorTokens) (operand : Operand.Spelling.read? right = some s) :
    splitToken comparatorTokens (symbol ++ right) = (symbol, right) := by
  apply splitComparator_append comparator
  intro c hc
  have free := (shape_of_read? operand).not_mem (d := '=') (by decide) (by decide)
  have member : c ∈ right := List.mem_of_mem_head? hc
  simp only [beq_eq_false_iff_ne, ne_eq]
  rintro rfl
  exact free member

/-- What follows a left operand has one spelling. -/
theorem comparison?_eq_some {t : Text} {s : Option (Text × Operand.Spelling)} :
    comparison? t = some s ↔ ∃ comparison, t = comparisonText comparison ∧ Spells comparison s := by
  constructor
  · intro h
    simp only [comparison?] at h
    split at h
    · rename_i empty
      obtain rfl := Option.some.inj h
      exact ⟨none, empty, .none⟩
    · split at h
      · exact absurd h (by simp)
      · rename_i nonempty
        obtain ⟨right, operand, rfl⟩ := Option.map_eq_some_iff.mp h
        obtain ⟨split, comparator⟩ := splitComparator_eq rfl nonempty
        exact ⟨some (_, _), split, .some comparator operand⟩
  · rintro ⟨comparison, rfl, spells⟩
    cases spells with
    | none => rfl
    | @some symbol right s comparator operand =>
      have nonempty := comparatorTokens_ne_nil symbol comparator
      simp [comparison?, comparisonText, splitComparator_operand comparator operand, nonempty,
        operand]

/-- A comparator and a right operand can be told apart. -/
theorem Spells.injective {c c' : Option (Text × Text)} {s s' : Option (Text × Operand.Spelling)}
    (h : Spells c s) (h' : Spells c' s') (text : comparisonText c = comparisonText c') :
    c = c' := by
  cases h with
  | none =>
    cases h' with
    | none => rfl
    | some comparator operand =>
      have empty := (List.append_eq_nil_iff.mp text.symm).1
      exact absurd empty (comparatorTokens_ne_nil _ comparator)
  | some comparator operand =>
    cases h' with
    | none =>
      have empty := (List.append_eq_nil_iff.mp text).1
      exact absurd empty (comparatorTokens_ne_nil _ comparator)
    | some comparator' operand' =>
      have cut := splitComparator_operand comparator operand
      rw [show _ ++ _ = _ ++ _ from text, splitComparator_operand comparator' operand'] at cut
      rw [cut]

/-- Where the left operand is not as long as can be, the comparator is the sign that could be read
as part of it. -/
theorem Sides.scan_or_sign {t left : Text} {comparison : Option (Text × Text)}
    {l : Operand.Spelling} {c : Option (Text × Operand.Spelling)}
    (h : Sides t left comparison l c) : scan t = (l, comparisonText comparison) ∨
      ∃ d right s, (d = '+' ∨ d = '-') ∧ comparison = some ([d], right) ∧
        Operand.Spelling.read? right = some s ∧ (splitFront t).2 = d :: right := by
  obtain ⟨rfl, operand, spells⟩ := h
  by_cases within : (comparisonText comparison).length ≤
      (scan (left ++ comparisonText comparison)).2.length
  · left
    rw [isCut_scan.within left _ within, read?_eq_some.mp operand, List.nil_append]
  · right
    cases spells with
    | none => simp [comparisonText] at within
    | @some symbol right s comparator operand =>
      cases symbol with
      | nil => exact absurd rfl (comparatorTokens_ne_nil _ comparator)
      | cons d more =>
        have outside := comparatorTokens_outside _ comparator d List.mem_cons_self
        have beyond : (scan (left ++ d :: (more ++ right))).2.length ≤ (more ++ right).length := by
          simp only [comparisonText, List.cons_append, List.length_cons] at within ⊢
          omega
        obtain ⟨front, signed⟩ := splitFront_of_scan_beyond outside beyond
        have single : more = [] := by
          have all : ∀ t ∈ comparatorTokens, t.head? = some '+' ∨ t.head? = some '-' →
              t.tail = [] := by decide
          exact all _ comparator (by simpa using signed)
        subst single
        exact ⟨d, right, s, signed, rfl, operand, front⟩

theorem signComparison?_of_front {t right : Text} {d : Char} {s : Operand.Spelling}
    (front : (splitFront t).2 = d :: right) (signed : d = '+' ∨ d = '-')
    (operand : Operand.Spelling.read? right = some s) : signComparison? t =
      some (.plain (splitFront t).1.1 (splitFront t).1.2 [], some ([d], s)) := by
  have sign : splitSign (splitSize (splitModifier t).2).2 = ([d], right) := by
    rw [← splitSign_sign signed right, ← front]
    rfl
  simp only [signComparison?, sign, operand]
  rfl

theorem signComparison?_sound {t : Text} {l : Operand.Spelling}
    {c : Option (Text × Operand.Spelling)} (h : signComparison? t = some (l, c)) :
    ∃ left comparison, Sides t left comparison l c ∧
      (splitFront t).2 = comparisonText comparison := by
  have sign : splitSign (splitSize (splitModifier t).2).2 = splitSign (splitFront t).2 := rfl
  simp only [signComparison?, sign] at h
  split at h
  · exact absurd h (by simp)
  · rename_i signed
    obtain ⟨s, operand, same⟩ := Option.map_eq_some_iff.mp h
    obtain ⟨rfl, rfl⟩ := Prod.mk.inj same
    obtain ⟨d, right, front, plusMinus⟩ : ∃ d right, (splitFront t).2 = d :: right ∧
        (d = '+' ∨ d = '-') := by
      cases front : (splitFront t).2 with
      | nil => exact absurd (by rw [front]; rfl) signed
      | cons d right =>
        refine ⟨d, right, rfl, ?_⟩
        by_contra unsigned
        exact signed (by simp [front, splitSign, unsigned])
    have split := splitSign_sign plusMinus right
    rw [← front] at split
    obtain ⟨x, text⟩ := isCut_splitFront.suffix t
    have alone := scan_front (x := x) (r := (splitFront t).2) (by rw [text])
    rw [text] at alone
    rw [split] at operand ⊢
    refine ⟨x, some ([d], right), ⟨?_, read?_eq_some.mpr alone, .some ?_ operand⟩, front⟩
    · rw [← text, front]
      rfl
    · rcases plusMinus with rfl | rfl <;> decide

theorem Sides.sides?_ne_none {t left : Text} {comparison : Option (Text × Text)}
    {l : Operand.Spelling} {c : Option (Text × Operand.Spelling)}
    (h : Sides t left comparison l c) : sides? t ≠ none := by
  simp only [sides?]
  split
  · simp
  · rename_i other
    rcases h.scan_or_sign with scanned | ⟨d, right, s, signed, _, operand, front⟩
    · rw [scanned, comparison?_eq_some.mpr ⟨comparison, rfl, h.spells⟩] at other
      exact absurd other (by simp)
    · rw [signComparison?_of_front front signed operand]
      simp

/-- The sides that are read have the longest left operand. -/
theorem sides?_sound {t : Text} {l : Operand.Spelling} {c : Option (Text × Operand.Spelling)}
    (h : sides? t = some (l, c)) : ∃ left comparison, Sides t left comparison l c ∧
      ∀ left' comparison' l' c', Sides t left' comparison' l' c' →
        left'.length ≤ left.length := by
  simp only [sides?] at h
  split at h
  · rename_i found
    obtain ⟨rfl, rfl⟩ := Prod.mk.inj (Option.some.inj h)
    obtain ⟨comparison, rest, spells⟩ := comparison?_eq_some.mp found
    obtain ⟨x, text, alone⟩ := isCut_scan.taken t
    refine ⟨x, comparison, ⟨rest ▸ text, read?_eq_some.mpr alone, spells⟩, ?_⟩
    intro left' comparison' l' c' other
    have bound := isCut_scan.longest left' (comparisonText comparison')
    rw [← other.text, read?_eq_some.mp other.operand] at bound
    have total := congrArg List.length (other.text.symm.trans text)
    simp only [List.length_append, List.length_nil] at total bound
    omega
  · rename_i other
    obtain ⟨left, comparison, sides, front⟩ := signComparison?_sound h
    refine ⟨left, comparison, sides, ?_⟩
    intro left' comparison' l' c' sides'
    rcases sides'.scan_or_sign with scanned | ⟨d, right, s, _, rfl, _, front'⟩
    · rw [scanned, comparison?_eq_some.mpr ⟨comparison', rfl, sides'.spells⟩] at other
      exact absurd other (by simp)
    · have total := congrArg List.length (sides'.text.symm.trans sides.text)
      rw [← front, front'] at total
      simp only [comparisonText, List.singleton_append, List.length_append] at total
      omega

end Spelling

end MemLogic.Requirement
