import MemLogic.Proofs.Operand.LetterCase

/-! How far an operand reaches into a text: as far as any operand does that the text starts with,
and what it takes up is the same operand by itself. -/

namespace MemLogic.Operand.Spelling
open Text

theorem isConstant_lower (w : Text) : Payload.isConstant (lower w) = Payload.isConstant w := by
  simp [Payload.isConstant]

theorem lower_mem_constantWords {w : Text} (h : Payload.isConstant w) :
    lower w ∈ Payload.constantWords := by
  simpa [Payload.isConstant] using h

theorem isAlphanum_of_isConstant {w : Text} (h : Payload.isConstant w) :
    ∀ c ∈ w, c.isAlphanum := by
  have all : ∀ v ∈ Payload.constantWords, ∀ c ∈ v, c.isAlphanum := by decide
  exact (forall_isAlphanum_lower w).mp (all _ (lower_mem_constantWords h))

theorem letters_of_recall {w : Text} (h : lower w = "recall".toList) :
    w ≠ [] ∧ ∀ c ∈ w, c.isAlphanum := by
  rw [ne_eq, ← lower_eq_nil, ← forall_isAlphanum_lower, h]
  decide

/-- Without regard to its meaning a constant is all payload, save for the `f` of the word
`false`. -/
theorem splitPlain_constant {w : Text} (h : Payload.isConstant w) :
    (splitPayload (splitFront w).2).2 = [] ∧ (splitPayload (splitFront w).2).1 ≠ [] ∧
      '.' ∉ (splitPayload (splitFront w).2).1 := by
  have all : ∀ v ∈ Payload.constantWords,
      (splitPayload (splitFront v).2).2 = [] ∧ (splitPayload (splitFront v).2).1 ≠ [] ∧
        '.' ∉ (splitPayload (splitFront v).2).1 := by decide
  obtain ⟨rest, nonempty, dot⟩ := all _ (lower_mem_constantWords h)
  simp only [splitFront_lower, splitPayload_lower, lower_eq_nil, ne_eq] at rest nonempty dot
  exact ⟨rest, nonempty, fun h => dot (List.mem_map_of_mem (f := Char.toLower) h)⟩

theorem splitBraced?_eq_some {t name rest : Text} : splitBraced? t = some (name, rest) ↔
    t = '\x7b' :: name ++ '\x7d' :: rest ∧ name ≠ [] ∧ ∀ c ∈ name, c.isAlphanum := by
  constructor
  · intro h
    unfold splitBraced? at h
    split at h
    · rename_i inner
      split at h
      · rename_i word rest' cut
        split at h
        · exact absurd h (by simp)
        · rename_i nonempty
          simp only [Option.some.injEq, Prod.mk.injEq] at h
          obtain ⟨rfl, rfl⟩ := h
          have whole := List.takeWhile_append_dropWhile (p := Char.isAlphanum) (l := inner)
          have taken : inner.takeWhile Char.isAlphanum = word := congrArg Prod.fst cut
          have left : inner.dropWhile Char.isAlphanum = '\x7d' :: rest' := congrArg Prod.snd cut
          refine ⟨?_, nonempty, ?_⟩
          · rw [← whole, taken, left]
            rfl
          · intro c hc
            rw [← taken] at hc
            exact List.mem_takeWhile_imp hc
      · exact absurd h (by simp)
    · exact absurd h (by simp)
  · rintro ⟨rfl, nonempty, word⟩
    have cut := splitWord_append (r := '\x7d' :: rest) word (stopsAt_cons.mpr (by decide))
    simp [splitBraced?, cut, nonempty]

theorem splitConstant?_eq_some {t w r : Text} : splitConstant? t = some (w, r) ↔
    t = w ++ r ∧ Payload.isConstant w ∧ StopsAt Char.isAlphanum r ∧ StopsAt (· == '.') r := by
  have dotless : ∀ u : Text, u.head? ≠ some '.' ↔ StopsAt (· == '.') u := by
    intro u
    cases u <;> simp
  constructor
  · intro h
    simp only [splitConstant?, Option.ite_none_right_eq_some, Option.some.injEq] at h
    obtain ⟨both, same⟩ := h
    have taken : t.takeWhile Char.isAlphanum = w := congrArg Prod.fst same
    have left : t.dropWhile Char.isAlphanum = r := congrArg Prod.snd same
    rw [same] at both
    refine ⟨?_, both.1, ?_, (dotless r).mp both.2⟩
    · rw [← taken, ← left, List.takeWhile_append_dropWhile]
    · rw [← left]
      exact stopsAt_dropWhile _ _
  · rintro ⟨rfl, constant, word, dot⟩
    have cut := splitWord_append (isAlphanum_of_isConstant constant) word
    simp only [splitConstant?, cut]
    rw [if_pos ⟨constant, (dotless r).mpr dot⟩]

theorem scan_braced {name : Text} (rest : Text) (nonempty : name ≠ [])
    (word : ∀ c ∈ name, c.isAlphanum) :
    scan ('\x7b' :: name ++ '\x7d' :: rest) = (ofName name, rest) := by
  rw [scan, splitBraced?_eq_some.mpr ⟨rfl, nonempty, word⟩]

theorem splitBraced?_eq_none {t : Text} (h : StopsAt (· == '\x7b') t) :
    splitBraced? t = none := by
  cases hb : splitBraced? t with
  | none => rfl
  | some pieces =>
    obtain ⟨rfl, _⟩ := splitBraced?_eq_some.mp hb
    simp at h

theorem splitBraced?_of_append {x y : Text} (h : splitBraced? (x ++ y) = none) :
    splitBraced? x = none := by
  cases hx : splitBraced? x with
  | none => rfl
  | some pieces =>
    obtain ⟨name, rest⟩ := pieces
    obtain ⟨rfl, nonempty, word⟩ := splitBraced?_eq_some.mp hx
    have still : splitBraced? ('\x7b' :: name ++ '\x7d' :: rest ++ y) = some (name, rest ++ y) :=
      splitBraced?_eq_some.mpr ⟨by simp, nonempty, word⟩
    exact absurd (still.symm.trans h) (Option.some_ne_none _)

theorem scan_constant {w r : Text} (constant : Payload.isConstant w)
    (word : StopsAt Char.isAlphanum r) (dot : StopsAt (· == '.') r) :
    scan (w ++ r) = (.constant w, r) := by
  have unbraced : splitBraced? (w ++ r) = none := by
    apply splitBraced?_eq_none
    cases w with
    | nil => exact absurd constant (by decide)
    | cons c w =>
      have letter := isAlphanum_of_isConstant constant c List.mem_cons_self
      simp only [List.cons_append, stopsAt_cons, beq_eq_false_iff_ne, ne_eq]
      rintro rfl
      exact absurd letter (by decide)
  rw [scan, unbraced, splitConstant?_eq_some.mpr ⟨rfl, constant, word, dot⟩]

theorem scan_plain {t : Text} (unbraced : splitBraced? t = none)
    (other : splitConstant? t = none) : scan t = splitPlain t := by
  rw [scan, unbraced, other]

/-- What is no constant, though the front of it is one, goes on in the payload. -/
theorem splitConstant?_of_append {x y : Text} (other : splitConstant? (x ++ y) = none)
    (h : y.length ≤ (splitPlain (x ++ y)).2.length) : splitConstant? x = none := by
  cases hx : splitConstant? x with
  | none => rfl
  | some pieces =>
    obtain ⟨w, r⟩ := pieces
    obtain ⟨rfl, constant, word, dot⟩ := splitConstant?_eq_some.mp hx
    cases r with
    | cons c r =>
      have still : splitConstant? (w ++ (c :: r) ++ y) = some (w, c :: r ++ y) :=
        splitConstant?_eq_some.mpr ⟨by simp, constant, by simpa using word, by simpa using dot⟩
      exact absurd (still.symm.trans other) (Option.some_ne_none _)
    | nil =>
      rw [List.append_nil] at other h
      obtain ⟨whole, _, dotless⟩ := splitPlain_constant constant
      have front := isCut_splitFront.within w y (Nat.le_trans h (isCut_splitPayload.length_le _))
      have payload : splitPayload (splitFront (w ++ y)).2 =
          ((splitPayload (splitFront w).2).1, y) := by
        have bound : y.length ≤ (splitPayload ((splitFront w).2 ++ y)).2.length := by
          simpa only [splitPlain_eq, front] using h
        rw [front, isCut_splitPayload.within _ y bound, whole, List.nil_append]
      obtain ⟨word, dot⟩ := splitPayload_rest (splitFront (w ++ y)).2
      rw [payload] at word dot
      have still : splitConstant? (w ++ y) = some (w, y) :=
        splitConstant?_eq_some.mpr ⟨rfl, constant, word, dot dotless⟩
      exact absurd (still.symm.trans other) (Option.some_ne_none _)

theorem isCut_scan : IsCut scan where
  suffix t := by
    cases hb : splitBraced? t with
    | some pieces =>
      obtain ⟨name, rest⟩ := pieces
      obtain ⟨rfl, nonempty, word⟩ := splitBraced?_eq_some.mp hb
      rw [scan_braced rest nonempty word]
      exact ⟨'\x7b' :: name ++ ['\x7d'], by simp⟩
    | none =>
      cases hc : splitConstant? t with
      | some pieces =>
        obtain ⟨rfl, constant, word, dot⟩ := splitConstant?_eq_some.mp hc
        rw [scan_constant constant word dot]
        exact List.suffix_append _ _
      | none =>
        rw [scan_plain hb hc]
        exact isCut_splitPlain.suffix t
  within x y h := by
    cases hb : splitBraced? (x ++ y) with
    | some pieces =>
      obtain ⟨name, rest⟩ := pieces
      obtain ⟨split, nonempty, word⟩ := splitBraced?_eq_some.mp hb
      rw [split, scan_braced rest nonempty word] at h
      have split' : x ++ y = ('\x7b' :: name ++ ['\x7d']) ++ rest := by simp [split]
      obtain ⟨r, rfl, rfl⟩ := exists_append_of_length_le split' h
      have shorter := scan_braced r nonempty word
      have longer := scan_braced (r ++ y) nonempty word
      simp only [List.append_assoc, List.cons_append, List.nil_append] at shorter longer ⊢
      rw [shorter, longer]
    | none =>
      have unbraced := splitBraced?_of_append hb
      cases hc : splitConstant? (x ++ y) with
      | some pieces =>
        obtain ⟨w, rest⟩ := pieces
        obtain ⟨split, constant, word, dot⟩ := splitConstant?_eq_some.mp hc
        rw [split, scan_constant constant word dot] at h
        obtain ⟨r, rfl, rfl⟩ := exists_append_of_length_le split h
        rw [split, scan_constant constant word dot,
          scan_constant constant word.of_append dot.of_append]
      | none =>
        rw [scan_plain hb hc] at h ⊢
        rw [scan_plain unbraced (splitConstant?_of_append hc h)]
        exact isCut_splitPlain.within x y h

end MemLogic.Operand.Spelling
