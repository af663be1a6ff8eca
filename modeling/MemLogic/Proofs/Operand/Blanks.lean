import MemLogic.Proofs.Group.Blanks
import MemLogic.Proofs.Operand.Denotation

/-! Blanks in operands: only a size holds one, behind its mark, and it says nothing there. -/

namespace MemLogic.Operand.Spelling
open Text MemLogic.Group

variable {m : Option Modifier} {k t w x : Text} {s : Spelling}

/-- The mark of a size in either letter case. -/
theorem lower_eq_hexMark : lower x = "0x".toList ↔ x = "0x".toList ∨ x = "0X".toList := by
  have letter : ∀ c : Char, c.toLower = 'x' ↔ c = 'x' ∨ c = 'X' := by
    refine forall_of_ascii _ (by decide +kernel) fun c beyond => ?_
    rw [toLower_of_le beyond]
    have other : c ≠ 'X' := by
      rintro rfl
      exact absurd beyond (by decide)
    simp [other]
  constructor
  · intro same
    obtain ⟨c, d, rfl⟩ : ∃ c d, x = [c, d] := by
      have two := congrArg List.length same
      exact List.length_eq_two.mp (by simpa using two)
    obtain ⟨zero, mark⟩ : c.toLower = '0' ∧ d.toLower = 'x' := by simpa using same
    rw [toLower_eq_iff (by decide)] at zero
    rcases (letter d).mp mark with rfl | rfl
    · exact .inl (by rw [zero]; rfl)
    · exact .inr (by rw [zero]; rfl)
  · rintro (rfl | rfl) <;> rfl

theorem endsInHexMark_of_lower (hex : lower k = "0x".toList) : EndsInHexMark k := by
  rcases lower_eq_hexMark.mp hex with rfl | rfl
  · exact .inl List.suffix_rfl
  · exact .inr List.suffix_rfl

theorem isAlphanum_hexMark (hex : lower k = "0x".toList) : ∀ c ∈ k, c.isAlphanum := by
  have all : ∀ w ∈ ["0x".toList, "0X".toList], ∀ c ∈ w, c.isAlphanum := by decide
  exact all k (by simpa using lower_eq_hexMark.mp hex)

/-- The one token with a blank is a mark with a space behind it. -/
theorem sizeTokens_blank : ∀ k ∈ sizeTokens, ' ' ∈ k → k = "0x ".toList := by decide

theorem IsSize.of_space {y : Text} (h : IsSize (x ++ ' ' :: y)) :
    lower x = "0x".toList ∧ y = [] := by
  have token : lower x ++ ' ' :: lower y = "0x ".toList := by
    rcases h with empty | found
    · simp at empty
    · have same := sizeTokens_blank _ found
      rw [lower_append] at same
      exact same (by simp)
  rcases x with _ | ⟨a, _ | ⟨b, _ | ⟨c, x⟩⟩⟩
  · simp at token
  · simp at token
  · simpa [lower_eq_nil, and_assoc] using token
  · simp at token

theorem IsSize.blanksMarked (h : IsSize k) : BlanksMarked k := by
  rintro x c y rfl blank
  have space : c = ' ' := by
    rcases h.chars c (by simp) with letter | space
    · exact absurd blank (by simp [isBlank_of_isAlphanum letter])
    · exact space
  subst space
  exact ⟨rfl, endsInHexMark_of_lower h.of_space.1⟩

theorem Shape.blanksMarked (h : Shape t s) : BlanksMarked t := by
  have word {w : Text} (hw : ∀ c ∈ w, c.isAlphanum) : BlanksMarked w :=
    blanksMarked_of_forall fun c hc => isBlank_of_isAlphanum (hw c hc)
  cases h with
  | braced nonempty name =>
    have opening : BlanksMarked ['\x7b'] := blanksMarked_of_forall (by decide)
    have closing : BlanksMarked ['\x7d'] := blanksMarked_of_forall (by decide)
    exact (opening.append (word name)).append closing
  | constant h => exact word (isAlphanum_of_isConstant h)
  | @plain m x k p mark size payload =>
    have first : BlanksMarked x := by
      refine blanksMarked_of_forall fun c hc => ?_
      rcases mark.chars c hc with letter | rfl
      · exact isBlank_of_isAlphanum letter
      · decide
    have last : BlanksMarked p := by
      refine blanksMarked_of_forall fun c hc => ?_
      rcases payload.chars c hc with letter | rfl | rfl | rfl
      · exact isBlank_of_isAlphanum letter
      all_goals decide
    exact (first.append size.blanksMarked).append last

/-- What ends in a space is not the end of a text without spaces. -/
theorem eq_nil_of_append_eq_space {u p : Text} (split : u ++ p = w ++ [' ']) (free : ' ' ∉ p) :
    p = [] := by
  rcases List.eq_nil_or_concat p with rfl | ⟨q, c, rfl⟩
  · rfl
  · rw [List.concat_eq_append, ← List.append_assoc] at split
    obtain ⟨_, last⟩ := List.append_inj' split rfl
    exact absurd (by simp [List.singleton_inj.mp last]) free

/-- An operand that ends in a space is a mark and a size, with no payload. -/
theorem Shape.exists_of_space (h : Shape (w ++ [' ']) s) : ∃ m x k, IsMark m x ∧
    lower k = "0x".toList ∧ w = x ++ k ∧ s = .plain m (k ++ [' ']) [] := by
  generalize whole : w ++ [' '] = t at h
  cases h with
  | braced nonempty word =>
    exact absurd (eq_nil_of_append_eq_space whole.symm (by decide)) (by simp)
  | constant h =>
    have member : ' ' ∈ w ++ [' '] := by simp
    exact absurd (isAlphanum_of_isConstant h ' ' (whole ▸ member)) (by decide)
  | @plain m x k p mark size payload =>
    have unpaid : ' ' ∉ p := fun member => absurd (payload.chars _ member) (by decide)
    have unmarked : ' ' ∉ x := fun member => absurd (mark.chars _ member) (by decide)
    obtain rfl := eq_nil_of_append_eq_space whole.symm unpaid
    rw [List.append_nil] at whole
    rcases List.eq_nil_or_concat k with rfl | ⟨k, c, rfl⟩
    · obtain rfl := eq_nil_of_append_eq_space (u := []) (by simpa using whole.symm) unmarked
      exact absurd whole (by simp)
    · rw [List.concat_eq_append] at size whole ⊢
      obtain ⟨front, last⟩ := List.append_inj' (whole.trans (List.append_assoc _ _ _).symm) rfl
      obtain rfl := List.singleton_inj.mp last
      exact ⟨m, x, k, mark, size.of_space.1, front, rfl⟩

theorem read?_hexMark (mark : IsMark m x) (hex : lower k = "0x".toList) :
    read? (x ++ k) = some (.plain m k []) := by
  have sized : lower k = lower Size.bits16.token ∨
      lower k = "0x ".toList ∧ Size.bits16 = .bits16 := .inl hex
  have read := read?_sized (p := []) mark (lower_token_known sized).1
    (fun _ => lower_token_head sized rfl) (by simp)
  rwa [List.append_nil] at read

/-- The space behind the mark of a size is of no effect. -/
theorem operand_space (hex : lower k = "0x".toList) (m : Option Modifier) :
    (plain m (k ++ [' ']) []).operand = (plain m k []).operand := by
  have spelt : lower (k ++ [' ']) = "0x ".toList := by
    rw [lower_append, hex]
    rfl
  have present : k ≠ [] := by
    rintro rfl
    exact absurd hex (by decide)
  simp [operand, present, spelt, hex, Size.ofToken_eq_ok (s := .bits16) (.inl hex),
    Size.ofToken_eq_ok (s := .bits16) (.inr ⟨spelt, rfl⟩)]

section Signs
variable {d : Char} {r : Text}

/-- Nothing is a payload of an operand that is all front. -/
theorem splitFront_bare (bare : read? x = some (.plain m k [])) : splitFront x = ((m, k), []) := by
  have scanned := read?_eq_some.mp bare
  have unbraced : splitBraced? x = none := by
    cases h : splitBraced? x with
    | none => rfl
    | some pieces =>
      obtain ⟨name, rest⟩ := pieces
      obtain ⟨rfl, nonempty, word⟩ := splitBraced?_eq_some.mp h
      rw [scan_braced rest nonempty word, ofName] at scanned
      split at scanned <;> simp at scanned
  have other : splitConstant? x = none := by
    cases h : splitConstant? x with
    | none => rfl
    | some pieces =>
      obtain ⟨w, rest⟩ := pieces
      obtain ⟨rfl, constant, word, dot⟩ := splitConstant?_eq_some.mp h
      rw [scan_constant constant word dot] at scanned
      simp at scanned
  rw [scan_plain unbraced other, splitPlain_eq] at scanned
  obtain ⟨parts, rest⟩ := Prod.mk.inj scanned
  obtain ⟨rfl, rfl, unpaid⟩ := Spelling.plain.inj parts
  have whole := (splitPayload_parts (splitFront x).2).2
  rw [unpaid, rest] at whole
  exact Prod.ext rfl whole

theorem splitFront_bare_append (bare : read? x = some (.plain m k [])) (hd : IsOutside d)
    (r : Text) : splitFront (x ++ d :: r) = ((m, k), d :: r) := by
  have within : (d :: r).length ≤ (splitFront (x ++ d :: r)).2.length := by
    obtain ⟨mark, marked, size, split⟩ := splitFront_parts (x ++ d :: r)
    by_contra beyond
    obtain ⟨z, inside⟩ := exists_of_beyond split (by rw [List.length_cons] at beyond; omega)
    have member : d ∈ mark ++ (splitFront (x ++ d :: r)).1.2 := by simp [inside]
    exact (List.mem_append.mp member).elim (marked.not_mem hd) (size.not_mem hd)
  rw [isCut_splitFront.within x _ within, splitFront_bare bare, List.nil_append]

/-- A sign behind an operand that is all front begins its payload. -/
theorem scan_bare_sign (bare : read? x = some (.plain m k [])) (signed : d = '+' ∨ d = '-')
    (r : Text) : scan (x ++ d :: r) =
      (.plain m k (splitPayload (d :: r)).1, (splitPayload (d :: r)).2) := by
  have hd : IsOutside d ∧ d.isAlpha = false ∧ d ≠ '\x7b' := by
    rcases signed with rfl | rfl <;> decide
  obtain ⟨outside, letterless, other⟩ := hd
  have unbraced : StopsAt (· == '\x7b') (x ++ d :: r) := by
    obtain ⟨y, mark, size, _, split⟩ := (shape_of_scan (read?_eq_some.mp bare)).parts
    rw [split, List.append_nil, List.append_assoc]
    refine stopsAt_brace mark ?_
    cases k with
    | nil => simpa using other
    | cons c k =>
      simp only [List.cons_append, stopsAt_cons, beq_eq_false_iff_ne, ne_eq]
      rintro rfl
      exact absurd (size.chars _ List.mem_cons_self) (by decide)
  exact scan_unlike (splitFront_bare_append bare outside r) unbraced
    (.inr (stopsAt_cons.mpr letterless))

end Signs

end MemLogic.Operand.Spelling
