import MemLogic.Proofs.Operand.Resolution

/-! Operands written out of their parts: a mark, a size token and a payload in a row are taken
apart again. -/

namespace MemLogic.Operand
open Text
namespace Spelling

/-- The text of a size token goes on with no letter that makes another token of it: only the bare
`0x` is the front of others. -/
theorem splitSize_token {k p : Text} (token : lower k ∈ sizeTokens)
    (free : lower k = "0x".toList → StopsAt (fun c => (' ' :: sizeLetters).contains c.toLower) p) :
    splitSize (k ++ p) = (k, p) := by
  have alone : splitSize k = (k, []) := by
    have all : ∀ v ∈ sizeTokens, splitSize v = (v, []) := by decide +kernel
    have low := all _ token
    rw [splitSize, splitToken_lower] at low
    obtain ⟨first, rest⟩ := Prod.mk.inj low
    have whole := splitToken_append sizeTokens k
    rw [lower_eq_nil.mp rest, List.append_nil] at whole
    exact Prod.ext whole (lower_eq_nil.mp rest)
  have bound := isCut_splitSize.longest k p
  rw [alone] at bound
  rcases splitToken_cases sizeTokens (k ++ p) with ⟨_, miss⟩ | ⟨x, y, split, taken, found⟩
  · exact absurd ⟨lower p, by rw [lower_append]⟩ (miss _ token)
  · have taken' : splitSize (k ++ p) = (x, y) := taken
    rw [taken', List.length_nil, Nat.zero_add] at bound
    obtain ⟨s, rfl, rfl⟩ := exists_append_of_length_le split.symm bound
    cases s with
    | nil => simpa using taken'
    | cons c s =>
      -- only a token that `0x` is the front of can have been taken
      have longer : ∀ u ∈ sizeTokens, ∀ n < u.length, u.take n ∈ sizeTokens →
          u.take n = "0x".toList ∧ ∀ d ∈ u[n]?, (' ' :: sizeLetters).contains d := by
        decide +kernel
      have front : (lower (k ++ c :: s)).take (lower k).length = lower k := by simp
      have inside : (lower k).length < (lower (k ++ c :: s)).length := by simp
      have next : (lower (k ++ c :: s))[(lower k).length]? = some c.toLower := by simp
      obtain ⟨bare, letter⟩ := longer _ found _ inside (by rwa [front])
      rw [front] at bare
      have stop := free bare
      rw [List.cons_append, stopsAt_cons, letter _ next] at stop
      exact absurd stop (by simp)

theorem splitModifier_none {c : Char} {r : Text} (h : Modifier.ofChar? c = none) :
    splitModifier (c :: r) = (none, c :: r) := by
  simp [splitModifier, h]

/-- A size token is never taken for a mark. -/
theorem splitModifier_unmarked {k p : Text} (token : lower k ∈ sizeTokens) :
    splitModifier (k ++ p) = (none, k ++ p) := by
  have encodings : ∀ v ∈ sizeTokens, v.head? = some 'f' → ∃ e ∈ encodingLetters, v = ['f', e] := by
    decide
  have nonempty : k ≠ [] := lower_eq_nil.not.mp (sizeTokens_ne_nil _ token)
  obtain ⟨c, k, rfl⟩ := List.exists_cons_of_ne_nil nonempty
  by_cases letter : c.toLower = 'f'
  · obtain ⟨e, he, same⟩ := encodings _ token (by simp [letter])
    obtain ⟨d, rfl⟩ : ∃ d, k = [d] := by
      have two := congrArg List.length same
      exact List.length_eq_one_iff.mp (by simpa using two)
    have follows : isEncoding d := by
      have low : d.toLower = e := by simpa using (List.cons.inj same).2
      simpa [isEncoding, low] using he
    have cut := splitFront_encoding (t := p) letter follows
    rcases splitModifier_cases (c :: d :: p) with h | ⟨c', r, m, split, h, _⟩
    · exact h
    · have marked : (splitFront (c :: d :: p)).1.1 = some m := by simp [splitFront, h]
      rw [cut] at marked
      exact absurd marked (by simp)
  · apply splitModifier_none
    rw [← ofChar?_toLower]
    have heads := sizeTokens_head _ token
    simp only [lower_cons, List.head?_cons, List.mem_cons, Option.some.injEq, List.not_mem_nil,
      or_false] at heads
    rcases heads with h | h | h
    · exact absurd h letter
    · rw [h]
      rfl
    · rw [h]
      rfl

/-- A float mark is one before the tokens with `0x`. -/
theorem splitModifier_token {m : Option Modifier} {x k p : Text} (mark : IsMark m x)
    (token : lower k ∈ sizeTokens) (float : m = some .float → k.head? = some '0') :
    splitModifier (x ++ (k ++ p)) = (m, k ++ p) := by
  cases m with
  | none =>
    rw [show x = [] from mark, List.nil_append]
    exact splitModifier_unmarked token
  | some m =>
    obtain ⟨c, hc, rfl⟩ := mark
    refine splitModifier_cons hc fun hm => ?_
    have zero := float (congrArg some hm)
    cases k with
    | nil => simp at zero
    | cons d k =>
      obtain rfl : d = '0' := by simpa using zero
      exact stopsAt_cons.mpr (by decide)

/-- What a payload without a size can begin with. -/
def isLiteralStart (c : Char) : Bool :=
  c.isDigit || c == '+' || c == '-' || c == '.'

theorem isAlpha_of_isLiteralStart {c : Char} (h : isLiteralStart c) : c.isAlpha = false := by
  simp only [isLiteralStart, Bool.or_eq_true, beq_iff_eq] at h
  rcases h with ((digit | rfl) | rfl) | rfl
  · exact isAlpha_of_isDigit digit
  · decide
  · decide
  · decide

theorem splitSize_literal {c : Char} {r : Text} (literal : isLiteralStart c)
    (unmarked : Payload.hasHexMark (c :: r) = false) : splitSize (c :: r) = ([], c :: r) := by
  have letterless := isAlpha_of_isLiteralStart literal
  rcases splitToken_cases sizeTokens (c :: r) with ⟨h, _⟩ | ⟨u, v, split, _, found⟩
  · exact h
  · have heads : ∀ k ∈ sizeTokens, ∀ d ∈ k.head?, d.isAlpha ∨ ['0', 'x'] <+: k := by decide
    cases u with
    | nil => exact absurd rfl (sizeTokens_ne_nil _ found)
    | cons d u =>
      obtain ⟨rfl, rest⟩ : c = d ∧ r = u ++ v := List.cons.inj split
      rcases heads _ found _ rfl with letter | ⟨s, hex⟩
      · rw [toLower_of_letterless letterless, letterless] at letter
        exact absurd letter (by simp)
      · have front : ['0', 'x'] <+: lower (c :: r) := by
          rw [rest, ← List.cons_append, lower_append, ← hex, List.append_assoc]
          exact List.prefix_append _ _
        rw [Payload.hasHexMark, List.isPrefixOf_iff_prefix.mpr front] at unmarked
        exact absurd unmarked (by simp)

theorem splitModifier_literal {m : Option Modifier} {x : Text} (mark : IsMark m x) {c : Char}
    (literal : isLiteralStart c) (r : Text) : splitModifier (x ++ c :: r) = (m, c :: r) := by
  have letterless := isAlpha_of_isLiteralStart literal
  have low := toLower_of_letterless letterless
  cases m with
  | none =>
    rw [show x = [] from mark]
    apply splitModifier_none
    cases h : Modifier.ofChar? c with
    | none => rfl
    | some m =>
      have marks : ∀ d ∈ markLetters, isLiteralStart d = false := by decide
      have member := toLower_mem_of_ofChar? h
      rw [low] at member
      rw [marks c member] at literal
      exact absurd literal (by simp)
  | some m =>
    obtain ⟨d, hd, rfl⟩ := mark
    refine splitModifier_cons hd fun _ => stopsAt_cons.mpr ?_
    have encodings : ∀ e ∈ encodingLetters, e.isAlpha := by decide
    rw [isEncoding, low, List.contains_eq_mem, decide_eq_false_iff_not]
    intro member
    rw [encodings c member] at letterless
    exact absurd letterless (by simp)

theorem splitFront_unsized {m : Option Modifier} {x p : Text} (mark : IsMark m x)
    (nonempty : p ≠ []) (literal : ∀ c ∈ p.head?, isLiteralStart c)
    (unmarked : Payload.hasHexMark p = false) : splitFront (x ++ p) = ((m, []), p) := by
  obtain ⟨c, r, rfl⟩ := List.exists_cons_of_ne_nil nonempty
  have start := literal c rfl
  simp only [splitFront, splitModifier_literal mark start r, splitSize_literal start unmarked]

theorem splitSign_append {sign t : Text} (signed : sign = [] ∨ sign = ['+'] ∨ sign = ['-'])
    (unsigned : ∀ c ∈ t, c.isAlphanum ∨ c = '.') : splitSign (sign ++ t) = (sign, t) := by
  rcases signed with rfl | rfl | rfl
  · cases t with
    | nil => rfl
    | cons c t =>
      have other : ¬ (c = '+' ∨ c = '-') := by
        rintro (rfl | rfl)
        · exact absurd (unsigned _ List.mem_cons_self) (by decide)
        · exact absurd (unsigned _ List.mem_cons_self) (by decide)
      simp only [List.nil_append, splitSign, other, if_false]
  · exact splitSign_sign (.inl rfl) t
  · exact splitSign_sign (.inr rfl) t

theorem splitPayload_eq {p : Text} (h : IsPayload p) : splitPayload p = (p, []) := by
  obtain ⟨sign, whole, fraction, rfl, signed, word, dotted⟩ := h.parts
  have stop : StopsAt Char.isAlphanum fraction := by
    rcases dotted with rfl | ⟨w, rfl, _⟩
    · exact stopsAt_nil _
    · exact stopsAt_cons.mpr (by decide)
  have unsigned : ∀ c ∈ whole ++ fraction, c.isAlphanum ∨ c = '.' := by
    intro c hc
    rcases List.mem_append.mp hc with hc | hc
    · exact .inl (word c hc)
    · rcases dotted with rfl | ⟨w, rfl, last⟩
      · exact absurd hc List.not_mem_nil
      · exact (List.mem_cons.mp hc).symm.imp_left (last c)
  have last : splitFraction fraction = (fraction, []) := by
    rcases dotted with rfl | ⟨w, rfl, last⟩
    · rfl
    · have whole := splitWord_append (r := []) last (stopsAt_nil _)
      rw [List.append_nil] at whole
      simp only [splitFraction, whole]
  simp only [splitPayload, List.append_assoc, splitSign_append signed unsigned,
    splitWord_append word stop, last]

/-- A constant has no size, and a letter follows all that could be its mark. -/
theorem splitFront_constant {w : Text} (h : Payload.isConstant w) (r : Text) :
    (splitFront (w ++ r)).1.2 = [] ∧ ∃ c ∈ (splitFront (w ++ r)).2.head?, c.isAlpha := by
  have low : (splitFront (lower w ++ lower r)).1.2 = [] ∧
      ∃ c ∈ (splitFront (lower w ++ lower r)).2.head?, c.isAlpha := by
    have member := lower_mem_constantWords h
    simp only [Payload.constantWords, List.mem_cons, List.not_mem_nil, or_false] at member
    rcases member with h | h | h | h | h
    all_goals
      rw [h]
      exact ⟨rfl, _, rfl, by decide⟩
  rw [← lower_append, splitFront_lower] at low
  obtain ⟨size, c, first, letter⟩ := low
  refine ⟨lower_eq_nil.mp size, ?_⟩
  cases front : (splitFront (w ++ r)).2 with
  | nil => simp [front] at first
  | cons d u =>
    refine ⟨d, rfl, ?_⟩
    by_contra other
    rw [Bool.not_eq_true] at other
    have same : d.toLower = c := by simpa [front] using first
    rw [← same, toLower_of_letterless other, other] at letter
    exact absurd letter (by simp)

/-- Behind a front the payload is all that can follow, if the text is no constant. -/
theorem scan_unlike {t p k : Text} {m : Option Modifier} (front : splitFront t = ((m, k), p))
    (unbraced : StopsAt (· == '\x7b') t) (unlike : k ≠ [] ∨ StopsAt Char.isAlpha p) :
    scan t = (.plain m k (splitPayload p).1, (splitPayload p).2) := by
  have other : splitConstant? t = none := by
    cases h : splitConstant? t with
    | none => rfl
    | some pieces =>
      obtain ⟨w, r⟩ := pieces
      obtain ⟨rfl, constant, _, _⟩ := splitConstant?_eq_some.mp h
      obtain ⟨unsized, c, first, letter⟩ := splitFront_constant constant r
      rw [front] at unsized first
      rcases unlike with sized | literal
      · exact absurd unsized sized
      · exact absurd letter (by simp [literal c first])
  rw [scan_plain (splitBraced?_eq_none unbraced) other, splitPlain_eq, front]

/-- A text that falls into a front and a payload is read as these. -/
theorem scan_written {t p k : Text} {m : Option Modifier} (front : splitFront t = ((m, k), p))
    (payload : IsPayload p) (unbraced : StopsAt (· == '\x7b') t)
    (unlike : k ≠ [] ∨ StopsAt Char.isAlpha p) : scan t = (.plain m k p, []) := by
  rw [scan_unlike front unbraced unlike, splitPayload_eq payload]

theorem stopsAt_brace {m : Option Modifier} {x p : Text} (mark : IsMark m x)
    (unbraced : StopsAt (· == '\x7b') p) : StopsAt (· == '\x7b') (x ++ p) := by
  cases x with
  | nil => exact unbraced
  | cons c x =>
    simp only [List.cons_append, stopsAt_cons, beq_eq_false_iff_ne, ne_eq]
    rintro rfl
    exact absurd (mark.chars _ List.mem_cons_self) (by decide)

def isHexDigit (c : Char) : Bool :=
  "0123456789abcdef".toList.contains c.toLower

theorem isAlphanum_of_isHexDigit {c : Char} (h : isHexDigit c) : c.isAlphanum := by
  have all : ∀ d ∈ "0123456789abcdef".toList, d.isAlphanum := by decide
  rw [← isAlphanum_toLower]
  exact all _ (by simpa [isHexDigit] using h)

/-- No hexadecimal digit is a size letter. -/
theorem splitSize_hex {k p : Text} (token : lower k ∈ sizeTokens) (hex : ∀ c ∈ p, isHexDigit c) :
    splitSize (k ++ p) = (k, p) := by
  refine splitSize_token token fun _ c first => ?_
  have apart : ∀ d ∈ "0123456789abcdef".toList, (' ' :: sizeLetters).contains d = false := by decide
  exact apart _ (by simpa [isHexDigit] using hex c (List.mem_of_mem_head? first))

theorem splitFront_sized {m : Option Modifier} {x k p : Text} (mark : IsMark m x)
    (token : lower k ∈ sizeTokens) (float : m = some .float → k.head? = some '0')
    (hex : ∀ c ∈ p, isHexDigit c) : splitFront (x ++ (k ++ p)) = ((m, k), p) := by
  simp only [splitFront, splitModifier_token mark token float, splitSize_hex token hex]

theorem read?_sized {m : Option Modifier} {x k p : Text} (mark : IsMark m x)
    (token : lower k ∈ sizeTokens) (float : m = some .float → k.head? = some '0')
    (hex : ∀ c ∈ p, isHexDigit c) : read? (x ++ (k ++ p)) = some (plain m k p) := by
  have nonempty : k ≠ [] := lower_eq_nil.not.mp (sizeTokens_ne_nil _ token)
  have front := splitFront_sized mark token float hex
  have payload : IsPayload p :=
    ⟨[], p, [], by simp, .inl rfl, fun c hc => isAlphanum_of_isHexDigit (hex c hc), .inl rfl⟩
  have unbraced : StopsAt (· == '\x7b') (k ++ p) := by
    obtain ⟨c, k, rfl⟩ := List.exists_cons_of_ne_nil nonempty
    simp only [List.cons_append, stopsAt_cons, beq_eq_false_iff_ne, ne_eq]
    rintro rfl
    have size : IsSize ('\x7b' :: k) := .inr token
    exact absurd (size.chars _ List.mem_cons_self) (by decide)
  exact read?_eq_some.mpr (scan_written front payload (stopsAt_brace mark unbraced) (.inl nonempty))

end Spelling
open Spelling

theorem read_sized {m : Option Modifier} {x k p : Text} (mark : IsMark m x)
    (token : lower k ∈ sizeTokens) (float : m = some .float → k.head? = some '0')
    (hex : ∀ c ∈ p, isHexDigit c) : read (x ++ (k ++ p)) = (plain m k p).operand :=
  read_eq_operand (read?_sized mark token float hex)

theorem read_unsized {m : Option Modifier} {x p : Text} (mark : IsMark m x) (payload : IsPayload p)
    (nonempty : p ≠ []) (literal : ∀ c ∈ p.head?, isLiteralStart c)
    (unmarked : Payload.hasHexMark p = false) : read (x ++ p) = plainOperand m none p := by
  have unbraced : StopsAt (· == '\x7b') p := by
    intro c first
    simp only [beq_eq_false_iff_ne, ne_eq]
    rintro rfl
    exact absurd (literal _ first) (by decide)
  have scanned := scan_written (splitFront_unsized mark nonempty literal unmarked) payload
    (stopsAt_brace mark unbraced) (.inr fun c first => isAlpha_of_isLiteralStart (literal c first))
  rw [read_eq_operand (read?_eq_some.mpr scanned), operand, if_pos rfl]

end MemLogic.Operand
