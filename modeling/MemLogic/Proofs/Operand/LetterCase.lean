import MemLogic.Proofs.Operand.Cut

/-! Letter case in operands: it does not matter to where their parts are cut off. -/

namespace MemLogic.Operand.Spelling
open Text

theorem ofChar?_toLower (c : Char) : Modifier.ofChar? c.toLower = Modifier.ofChar? c := by
  simp [Modifier.ofChar?]

theorem stopsAt_isEncoding_lower (t : Text) :
    StopsAt isEncoding (lower t) ↔ StopsAt isEncoding t := by
  cases t <;> simp [isEncoding]

theorem splitModifier_lower (t : Text) :
    splitModifier (lower t) = ((splitModifier t).1, lower (splitModifier t).2) := by
  rcases splitModifier_cases t with h | ⟨c, r, m, rfl, h, mark, free⟩
  · rw [h]
    rcases splitModifier_cases (lower t) with h' | ⟨c', r', m, split, h', mark, free⟩
    · exact h'
    · cases t with
      | nil => simp at split
      | cons c r =>
        obtain ⟨rfl, rfl⟩ := List.cons.inj split
        rw [ofChar?_toLower] at mark
        rw [splitModifier_cons mark fun hm => (stopsAt_isEncoding_lower r).mp (free hm)] at h
        simp at h
  · rw [h, lower_cons, splitModifier_cons ((ofChar?_toLower c).trans mark) fun hm =>
      (stopsAt_isEncoding_lower r).mpr (free hm)]

theorem splitSize_lower (t : Text) :
    splitSize (lower t) = (lower (splitSize t).1, lower (splitSize t).2) :=
  splitToken_lower sizeTokens t

theorem splitFront_lower (t : Text) : splitFront (lower t) =
    (((splitFront t).1.1, lower (splitFront t).1.2), lower (splitFront t).2) := by
  simp only [splitFront, splitModifier_lower, splitSize_lower]

theorem splitSign_lower (t : Text) :
    splitSign (lower t) = (lower (splitSign t).1, lower (splitSign t).2) := by
  cases t with
  | nil => rfl
  | cons c t =>
    simp only [splitSign, lower_cons, toLower_eq_iff (show '+'.isAlpha = false by decide),
      toLower_eq_iff (show '-'.isAlpha = false by decide)]
    split <;> rfl

theorem splitWord_lower (t : Text) :
    splitWord (lower t) = (lower (splitWord t).1, lower (splitWord t).2) :=
  Prod.ext (takeWhile_lower isAlphanum_toLower t) (dropWhile_lower isAlphanum_toLower t)

theorem splitFraction_lower (t : Text) :
    splitFraction (lower t) = (lower (splitFraction t).1, lower (splitFraction t).2) := by
  cases t with
  | nil => rfl
  | cons c t =>
    by_cases dot : c = '.'
    · subst dot
      simp [splitFraction, splitWord_lower, show '.'.toLower = '.' by decide]
    · have dot' : c.toLower ≠ '.' := by rwa [ne_eq, toLower_eq_iff (by decide)]
      rw [lower_cons, splitFraction_of_stopsAt (t := c.toLower :: lower t) (by simpa using dot'),
        splitFraction_of_stopsAt (by simpa using dot)]
      rfl

theorem splitPayload_lower (t : Text) :
    splitPayload (lower t) = (lower (splitPayload t).1, lower (splitPayload t).2) := by
  simp only [splitPayload, splitSign_lower, splitWord_lower, splitFraction_lower, lower_append]

end MemLogic.Operand.Spelling
