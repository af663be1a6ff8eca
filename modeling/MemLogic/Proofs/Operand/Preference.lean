import MemLogic.Proofs.Operand.OrderedChoice

/-! Operands at the front of a longer text: the pattern prefers what the reader scans, save for
constants that a dot follows, and reads an operand that ends before no letter or digit as it reads
it alone. -/

namespace MemLogic.Operand.Grammar
open Text Spelling Pattern

variable {r t : Text} {s : Spelling}

theorem isLocal_braced {p : Pattern Text} (h : IsLocal p r) : IsLocal (braced p) r :=
  (IsLocal.one _ r).andThen fun _ => h.andThen fun name =>
    (IsLocal.one _ r).andThen fun _ => IsLocal.yield name r

theorem isAlphanum_of_isEncoding {c : Char} (h : isEncoding c) : c.isAlphanum := by
  have all : ∀ e ∈ encodingLetters, e.isAlphanum := by decide
  rw [← isAlphanum_toLower]
  exact all _ (by simpa [isEncoding] using h)

theorem isLocal_modifier (stop : StopsAt Char.isAlphanum r) : IsLocal modifier r := by
  have unencoded : StopsAt isEncoding r := fun c first =>
    Bool.eq_false_iff.mpr fun letter =>
      absurd (isAlphanum_of_isEncoding letter) (by simp [stop c first])
  refine (IsLocal.one _ r).andThen fun c => ?_
  split
  · exact (IsLocal.unlessNext unencoded).andThen fun _ => IsLocal.yield _ r
  · exact IsLocal.yield _ r
  · exact IsLocal.nothing r

theorem isLocal_payload (r : Text) : IsLocal payload r :=
  (IsLocal.one _ r).optional.andThen fun _ => (IsLocal.many _ r).andThen fun _ =>
    ((IsLocal.one _ r).andThen fun dot => (IsLocal.many _ r).andThen fun w =>
      IsLocal.yield (dot :: w) r).optional.andThen fun _ => IsLocal.yield _ r

/-- Only a letter or a digit could change how an operand is read that ends before it. -/
theorem isLocal_operand (stop : StopsAt Char.isAlphanum r) : IsLocal operand r := by
  refine IsLocal.choice fun p member => ?_
  simp only [List.mem_cons, List.not_mem_nil, or_false] at member
  rcases member with rfl | rfl | rfl | rfl
  · exact (isLocal_braced (IsLocal.token _ r)).andThen fun _ => IsLocal.yield _ r
  · exact (isLocal_braced (IsLocal.many1 _ r)).andThen fun name => IsLocal.yield _ r
  · exact (IsLocal.token _ r).andThen fun w =>
      (IsLocal.unlessNext stop).andThen fun _ => IsLocal.yield _ r
  · exact (isLocal_modifier stop).optional.andThen fun m =>
      (IsLocal.token _ r).optional.andThen fun size =>
        (isLocal_payload r).andThen fun p => IsLocal.yield _ r

theorem head?_optional_sign (t : Text) : ∃ sign : Option Char, sign.toList = (splitSign t).1 ∧
    (optional (one fun c => c == '+' || c == '-') t).head? = some (sign, (splitSign t).2) := by
  cases t with
  | nil => exact ⟨none, rfl, rfl⟩
  | cons c t =>
    by_cases signed : c = '+' ∨ c = '-'
    · exact ⟨some c, by simp [splitSign, signed],
        by simp [Pattern.optional, one, splitSign, signed]⟩
    · exact ⟨none, by simp [splitSign, signed],
        by simp [Pattern.optional, one, splitSign, signed]⟩

theorem head?_optional_fraction (t : Text) : ∃ fraction : Option Text,
    fraction.getD [] = (splitFraction t).1 ∧ (optional (andThen (one (· == '.')) fun dot =>
      andThen word fun w => yield (dot :: w)) t).head? = some (fraction, (splitFraction t).2) := by
  by_cases dotless : StopsAt (· == '.') t
  · refine ⟨none, by rw [splitFraction_of_stopsAt dotless]; rfl, ?_⟩
    cases t with
    | nil => rfl
    | cons c t =>
      have other : c ≠ '.' := by simpa using dotless
      simp [Pattern.optional, andThen, one, other, splitFraction_of_stopsAt dotless]
  · cases t with
    | nil => exact absurd (stopsAt_nil _) dotless
    | cons c t =>
      obtain rfl : c = '.' := by simpa using dotless
      exact ⟨some ('.' :: (splitWord t).1), rfl,
        head?_optional (head?_andThen rfl (head?_andThen (head?_many _ t) rfl))⟩

theorem head?_payload (t : Text) : (payload t).head? = some (splitPayload t) := by
  obtain ⟨sign, signed, first⟩ := head?_optional_sign t
  obtain ⟨fraction, dotted, last⟩ := head?_optional_fraction (splitWord (splitSign t).2).2
  refine head?_andThen first (head?_andThen (head?_many _ _) (head?_andThen last ?_))
  rw [signed, dotted]
  rfl

theorem head?_plain (t : Text) : (plain t).head? = some (splitPlain t) := by
  obtain ⟨size, token, second⟩ := head?_optional_size (splitModifier t).2
  refine head?_andThen (head?_optional_modifier t) (head?_andThen second
    (head?_andThen (head?_payload _) ?_))
  rw [token]
  rfl

theorem head?_constant {w : Text} (cut : splitConstant? t = some (w, r)) :
    (constant t).head? = some (.constant w, r) := by
  obtain ⟨rfl, known, stop, _⟩ := splitConstant?_eq_some.mp cut
  refine head?_of_forall (mem_constant.mpr ⟨w, rfl, known, stop, rfl⟩) ?_
  rintro ⟨s, rest⟩ member
  obtain ⟨w', same, known', stop', rfl⟩ := mem_constant.mp member
  have whole := splitWord_append (isAlphanum_of_isConstant known) stop
  rw [same, splitWord_append (isAlphanum_of_isConstant known') stop'] at whole
  obtain ⟨rfl, rfl⟩ := Prod.mk.inj whole
  rfl

/-- A constant that the reader leaves to a payload has a dot behind it. -/
theorem dotted_of_mem_constant (uncut : splitConstant? t = none) (member : (s, r) ∈ constant t) :
    r.head? = some '.' := by
  obtain ⟨w, rfl, known, stop, rfl⟩ := mem_constant.mp member
  by_contra dotless
  have dot : StopsAt (· == '.') r := fun c first => by
    rw [beq_eq_false_iff_ne]
    rintro rfl
    exact dotless first
  have cut := splitConstant?_eq_some.mpr ⟨rfl, known, stop, dot⟩
  exact Option.some_ne_none _ (cut.symm.trans uncut)

/-- The operand that the reader takes is preferred to all but constants that a dot follows. -/
theorem operand_scan (t : Text) : ∃ before more, operand t = before ++ scan t :: more ∧
    ∀ e ∈ before, e.2.head? = some '.' := by
  have order : operand t = (recalled t ++ named t) ++ (constant t ++ plain t) := by
    simp [operand, choice]
  have braced := head?_braced t
  rw [order, scan]
  cases hb : splitBraced? t with
  | some pieces =>
    rw [hb, Option.map_some, List.head?_eq_some_iff] at braced
    obtain ⟨more, braced⟩ := braced
    exact ⟨[], _, by rw [braced, List.nil_append, List.cons_append], by simp⟩
  | none =>
    rw [hb, Option.map_none, List.head?_eq_none_iff] at braced
    rw [braced, List.nil_append]
    cases hc : splitConstant? t with
    | some pieces =>
      obtain ⟨more, first⟩ := List.head?_eq_some_iff.mp (head?_constant hc)
      exact ⟨[], _, by rw [first, List.nil_append, List.cons_append], by simp⟩
    | none =>
      obtain ⟨more, first⟩ := List.head?_eq_some_iff.mp (head?_plain t)
      exact ⟨constant t, more, by rw [first], fun e member => dotted_of_mem_constant hc member⟩

end MemLogic.Operand.Grammar
