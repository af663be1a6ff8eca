import MemLogic.Proofs.Operand.Extent

/-! The shapes of operands: which parts the text of an operand falls into, and of which characters
each part is. -/

namespace MemLogic.Operand.Spelling
open Text

/-- The text of a modifier, or none. -/
def IsMark : Option Modifier → Text → Prop
  | none, x => x = []
  | some m, x => ∃ c, Modifier.ofChar? c = some m ∧ x = [c]

def IsSize (k : Text) : Prop :=
  k = [] ∨ lower k ∈ sizeTokens

/-- A sign, a word, and a dot with another word, of which each may be missing. -/
structure IsPayload (p : Text) : Prop where
  parts : ∃ sign whole fraction, p = sign ++ whole ++ fraction ∧
    (sign = [] ∨ sign = ['+'] ∨ sign = ['-']) ∧ (∀ c ∈ whole, c.isAlphanum) ∧
      (fraction = [] ∨ ∃ w, fraction = '.' :: w ∧ ∀ c ∈ w, c.isAlphanum)

/-- The text of an operand, with how it is spelled. -/
inductive Shape : Text → Spelling → Prop where
  | braced {name : Text} (nonempty : name ≠ []) (word : ∀ c ∈ name, c.isAlphanum) :
    Shape ('\x7b' :: name ++ ['\x7d']) (ofName name)
  | constant {w : Text} (h : Payload.isConstant w) : Shape w (.constant w)
  | plain {m : Option Modifier} {x k p : Text} (mark : IsMark m x) (size : IsSize k)
    (payload : IsPayload p) : Shape (x ++ k ++ p) (.plain m k p)

theorem Shape.parts {t k p : Text} {m : Option Modifier} (h : Shape t (.plain m k p)) :
    ∃ x, IsMark m x ∧ IsSize k ∧ IsPayload p ∧ t = x ++ k ++ p := by
  generalize whole : Spelling.plain m k p = s at h
  cases h with
  | braced =>
    unfold ofName at whole
    split at whole <;> exact absurd whole (by simp)
  | constant => exact absurd whole (by simp)
  | plain mark size payload =>
    obtain ⟨rfl, rfl, rfl⟩ := Spelling.plain.inj whole
    exact ⟨_, mark, size, payload, rfl⟩

theorem isSize_splitSize (t : Text) : IsSize (splitSize t).1 := by
  rcases splitToken_cases sizeTokens t with ⟨h, _⟩ | ⟨_, _, _, h, found⟩
  · exact .inl (congrArg Prod.fst h)
  · rw [splitSize, h]
    exact .inr found

theorem splitFront_parts (t : Text) : ∃ x, IsMark (splitFront t).1.1 x ∧
    IsSize (splitFront t).1.2 ∧ t = x ++ (splitFront t).1.2 ++ (splitFront t).2 := by
  have whole : (splitModifier t).2 = (splitFront t).1.2 ++ (splitFront t).2 :=
    (splitToken_append sizeTokens _).symm
  rcases splitModifier_cases t with h | ⟨c, r, m, split, h, mark, _⟩
  · refine ⟨[], ?_, isSize_splitSize _, ?_⟩
    · rw [show (splitFront t).1.1 = none from congrArg Prod.fst h]
      rfl
    · rw [List.nil_append, ← whole, h]
  · refine ⟨[c], ?_, isSize_splitSize _, ?_⟩
    · rw [show (splitFront t).1.1 = some m from congrArg Prod.fst h]
      exact ⟨c, mark, rfl⟩
    · rw [List.append_assoc, ← whole, h]
      exact split

theorem splitSign_parts (t : Text) :
    ((splitSign t).1 = [] ∨ (splitSign t).1 = ['+'] ∨ (splitSign t).1 = ['-']) ∧
      t = (splitSign t).1 ++ (splitSign t).2 := by
  cases t with
  | nil => exact ⟨.inl rfl, rfl⟩
  | cons c t =>
    by_cases signed : c = '+' ∨ c = '-'
    · simp only [splitSign, signed, if_true]
      rcases signed with rfl | rfl
      · exact ⟨.inr (.inl rfl), rfl⟩
      · exact ⟨.inr (.inr rfl), rfl⟩
    · simp [splitSign, signed]

theorem splitWord_parts (t : Text) : (∀ c ∈ (splitWord t).1, c.isAlphanum) ∧
    t = (splitWord t).1 ++ (splitWord t).2 :=
  ⟨fun _ hc => List.mem_takeWhile_imp hc, List.takeWhile_append_dropWhile.symm⟩

theorem splitFraction_parts (t : Text) :
    ((splitFraction t).1 = [] ∨ ∃ w, (splitFraction t).1 = '.' :: w ∧ ∀ c ∈ w, c.isAlphanum) ∧
      t = (splitFraction t).1 ++ (splitFraction t).2 := by
  by_cases dot : StopsAt (· == '.') t
  · rw [splitFraction_of_stopsAt dot]
    exact ⟨.inl rfl, rfl⟩
  · cases t with
    | nil => exact absurd (stopsAt_nil _) dot
    | cons c t =>
      obtain rfl : c = '.' := by simpa using dot
      obtain ⟨word, split⟩ := splitWord_parts t
      exact ⟨.inr ⟨_, rfl, word⟩, congrArg ('.' :: ·) split⟩

theorem splitPayload_parts (t : Text) :
    IsPayload (splitPayload t).1 ∧ t = (splitPayload t).1 ++ (splitPayload t).2 := by
  obtain ⟨signed, sign⟩ := splitSign_parts t
  obtain ⟨letters, word⟩ := splitWord_parts (splitSign t).2
  obtain ⟨dotted, fraction⟩ := splitFraction_parts (splitWord (splitSign t).2).2
  refine ⟨⟨_, _, _, rfl, signed, letters, dotted⟩, ?_⟩
  calc t = (splitSign t).1 ++ (splitSign t).2 := sign
    _ = (splitSign t).1 ++ ((splitWord (splitSign t).2).1 ++ (splitWord (splitSign t).2).2) := by
      rw [← word]
    _ = (splitSign t).1 ++ ((splitWord (splitSign t).2).1 ++
        ((splitFraction (splitWord (splitSign t).2).2).1 ++
          (splitFraction (splitWord (splitSign t).2).2).2)) := by
      rw [← fraction]
    _ = (splitPayload t).1 ++ (splitPayload t).2 := by
      simp [splitPayload]

theorem shape_of_scan {t : Text} {s : Spelling} (h : scan t = (s, [])) : Shape t s := by
  cases hb : splitBraced? t with
  | some pieces =>
    obtain ⟨name, rest⟩ := pieces
    obtain ⟨rfl, nonempty, word⟩ := splitBraced?_eq_some.mp hb
    rw [scan_braced rest nonempty word] at h
    obtain ⟨rfl, rfl⟩ := Prod.mk.inj h
    exact .braced nonempty word
  | none =>
    cases hc : splitConstant? t with
    | some pieces =>
      obtain ⟨w, rest⟩ := pieces
      obtain ⟨rfl, constant, word, dot⟩ := splitConstant?_eq_some.mp hc
      rw [scan_constant constant word dot] at h
      obtain ⟨rfl, rfl⟩ := Prod.mk.inj h
      rw [List.append_nil]
      exact .constant constant
    | none =>
      rw [scan_plain hb hc, splitPlain_eq] at h
      obtain ⟨rfl, rest⟩ := Prod.mk.inj h
      obtain ⟨x, mark, size, split⟩ := splitFront_parts t
      obtain ⟨payload, whole⟩ := splitPayload_parts (splitFront t).2
      rw [rest, List.append_nil] at whole
      have pieces : t = x ++ (splitFront t).1.2 ++ (splitPayload (splitFront t).2).1 := by
        rw [← whole]
        exact split
      have shape := Shape.plain mark size payload
      rwa [← pieces] at shape

theorem read?_eq_some {t : Text} {s : Spelling} : read? t = some s ↔ scan t = (s, []) := by
  unfold read?
  split
  · rename_i whole
    simp [Prod.ext_iff, whole]
  · rename_i part
    simp [Prod.ext_iff, part]

theorem read?_constant {w : Text} (h : Payload.isConstant w) : read? w = some (.constant w) := by
  have scanned := scan_constant (r := []) h (stopsAt_nil _) (stopsAt_nil _)
  rw [List.append_nil] at scanned
  exact read?_eq_some.mpr scanned

theorem read?_braced {name : Text} (nonempty : name ≠ []) (word : ∀ c ∈ name, c.isAlphanum) :
    read? ('\x7b' :: name ++ ['\x7d']) = some (ofName name) :=
  read?_eq_some.mpr (scan_braced [] nonempty word)

/-- The marks of modifiers in lower case. -/
def markLetters : Text :=
  "dpb~fv".toList

theorem toLower_mem_of_ofChar? {c : Char} {m : Modifier} (h : Modifier.ofChar? c = some m) :
    c.toLower ∈ markLetters := by
  unfold Modifier.ofChar? at h
  split at h <;> simp_all [markLetters]

theorem isAlphanum_of_ofChar? {c : Char} {m : Modifier} (h : Modifier.ofChar? c = some m) :
    c.isAlphanum ∨ c = '~' := by
  have all : ∀ d ∈ markLetters, d.isAlphanum ∨ d = '~' := by decide
  rw [← isAlphanum_toLower c, ← toLower_eq_iff (d := '~') (by decide)]
  exact all _ (toLower_mem_of_ofChar? h)

theorem IsMark.chars {m : Option Modifier} {x : Text} (h : IsMark m x) :
    ∀ c ∈ x, c.isAlphanum ∨ c = '~' := by
  cases m with
  | none => simp [show x = [] from h]
  | some m =>
    obtain ⟨c, mark, rfl⟩ := h
    simpa using isAlphanum_of_ofChar? mark

theorem IsSize.chars {k : Text} (h : IsSize k) : ∀ c ∈ k, c.isAlphanum ∨ c = ' ' := by
  intro c hc
  rcases h with rfl | found
  · exact absurd hc List.not_mem_nil
  · rw [← isAlphanum_toLower c, ← toLower_eq_iff (d := ' ') (by decide)]
    exact sizeTokens_chars _ found _ (List.mem_map_of_mem hc)

/-- No letter or digit, and none of the marks that stand in operands apart from signs. -/
def IsOutside (d : Char) : Prop :=
  d.isAlphanum = false ∧ d ∉ ['.', ' ', '~', '\x7b', '\x7d']

instance (d : Char) : Decidable (IsOutside d) :=
  inferInstanceAs (Decidable (_ ∧ _))

/-- Rows of characters of one class, with a sign before them and a dot between them. -/
theorem chars_of_parts {p : Char → Prop} {sign whole fraction : Text}
    (signed : sign = [] ∨ sign = ['+'] ∨ sign = ['-']) (row : ∀ c ∈ whole, p c)
    (dotted : fraction = [] ∨ ∃ w, fraction = '.' :: w ∧ ∀ c ∈ w, p c) :
    ∀ c ∈ sign ++ whole ++ fraction, p c ∨ c = '+' ∨ c = '-' ∨ c = '.' := by
  intro c hc
  rcases List.mem_append.mp hc with hc | hc
  · rcases List.mem_append.mp hc with hc | hc
    · rcases signed with rfl | rfl | rfl
      · exact absurd hc List.not_mem_nil
      · exact .inr (.inl (List.mem_singleton.mp hc))
      · exact .inr (.inr (.inl (List.mem_singleton.mp hc)))
    · exact .inl (row c hc)
  · rcases dotted with rfl | ⟨w, rfl, last⟩
    · exact absurd hc List.not_mem_nil
    · rcases List.mem_cons.mp hc with rfl | hc
      · exact .inr (.inr (.inr rfl))
      · exact .inl (last c hc)

theorem IsPayload.chars {p : Text} (h : IsPayload p) :
    ∀ c ∈ p, c.isAlphanum ∨ c = '+' ∨ c = '-' ∨ c = '.' := by
  obtain ⟨sign, whole, fraction, rfl, signed, word, dotted⟩ := h.parts
  exact chars_of_parts signed word dotted

theorem IsOutside.not_mem_word {d : Char} (hd : IsOutside d) {w : Text}
    (word : ∀ c ∈ w, c.isAlphanum) : d ∉ w := by
  intro member
  exact absurd (word d member) (by simp [hd.1])

theorem IsMark.not_mem {m : Option Modifier} {x : Text} (h : IsMark m x) {d : Char}
    (hd : IsOutside d) : d ∉ x := by
  intro member
  rcases h.chars d member with letter | rfl
  · exact absurd letter (by simp [hd.1])
  · exact absurd hd.2 (by simp)

theorem IsSize.not_mem {k : Text} (h : IsSize k) {d : Char} (hd : IsOutside d) : d ∉ k := by
  intro member
  rcases h.chars d member with letter | rfl
  · exact absurd letter (by simp [hd.1])
  · exact absurd hd.2 (by simp)

theorem IsPayload.outside {p : Text} (h : IsPayload p) {d : Char} (hd : IsOutside d) {x y : Text}
    (split : p = x ++ d :: y) : x = [] ∧ (d = '+' ∨ d = '-') := by
  obtain ⟨sign, whole, fraction, rfl, signed, word, dotted⟩ := h.parts
  have other : d ∉ whole ++ fraction := by
    intro hm
    rcases List.mem_append.mp hm with hm | hm
    · exact hd.not_mem_word word hm
    · rcases dotted with rfl | ⟨w, rfl, word⟩
      · exact absurd hm List.not_mem_nil
      · rcases List.mem_cons.mp hm with rfl | hm
        · exact hd.2 (by simp)
        · exact hd.not_mem_word word hm
  have unsigned : ∀ s, sign = [s] → x = [] ∧ d = s := by
    rintro s rfl
    rw [List.append_assoc] at split
    cases x with
    | nil => exact ⟨rfl, (List.cons.inj split).1.symm⟩
    | cons c x =>
      have inside : whole ++ fraction = x ++ d :: y := (List.cons.inj split).2
      exact absurd (by rw [inside]; simp) other
  rcases signed with rfl | rfl | rfl
  · have inside : whole ++ fraction = x ++ d :: y := split
    exact absurd (by rw [inside]; simp) other
  · exact ⟨(unsigned _ rfl).1, .inl (unsigned _ rfl).2⟩
  · exact ⟨(unsigned _ rfl).1, .inr (unsigned _ rfl).2⟩

theorem IsPayload.count_dot {p : Text} (h : IsPayload p) : p.count '.' ≤ 1 := by
  obtain ⟨sign, whole, fraction, rfl, signed, word, dotted⟩ := h.parts
  have free : ∀ w : Text, (∀ c ∈ w, c.isAlphanum) → w.count '.' = 0 := by
    intro w hw
    exact List.count_eq_zero.mpr fun member => absurd (hw _ member) (by decide)
  have signless : sign.count '.' = 0 := by
    rcases signed with rfl | rfl | rfl <;> rfl
  have one : fraction.count '.' ≤ 1 := by
    rcases dotted with rfl | ⟨w, rfl, word⟩
    · exact Nat.zero_le 1
    · rw [List.count_cons, free w word]
      exact Nat.le_refl 1
  rw [List.count_append, List.count_append, signless, free whole word]
  omega

theorem Shape.count_dot {t : Text} {s : Spelling} (h : Shape t s) : t.count '.' ≤ 1 := by
  cases h with
  | @braced name nonempty word =>
    have free : name.count '.' = 0 :=
      List.count_eq_zero.mpr fun member => absurd (word _ member) (by decide)
    simp [free]
  | constant h =>
    rw [List.count_eq_zero.mpr fun member =>
      absurd (isAlphanum_of_isConstant h _ member) (by decide)]
    exact Nat.zero_le 1
  | @plain m x k p mark size payload =>
    have first : x.count '.' = 0 :=
      List.count_eq_zero.mpr fun member => absurd (mark.chars _ member) (by decide)
    have second : k.count '.' = 0 :=
      List.count_eq_zero.mpr fun member => absurd (size.chars _ member) (by decide)
    rw [List.count_append, List.count_append, first, second]
    simpa using payload.count_dot

/-- A braced name holds no character from outside. -/
theorem not_mem_braced {d : Char} (hd : IsOutside d) {name : Text}
    (word : ∀ c ∈ name, c.isAlphanum) : d ∉ '\x7b' :: name ++ ['\x7d'] := by
  intro member
  simp only [List.cons_append, List.mem_cons, List.mem_append, List.not_mem_nil, or_false] at member
  rcases member with rfl | member | rfl
  · exact absurd hd.2 (by simp)
  · exact hd.not_mem_word word member
  · exact absurd hd.2 (by simp)

/-- The only character of comparators that stands in operands is a sign. -/
theorem Shape.not_mem {t : Text} {s : Spelling} (h : Shape t s) {d : Char} (hd : IsOutside d)
    (unsigned : d ∉ ['+', '-']) : d ∉ t := by
  cases h with
  | braced nonempty word => exact not_mem_braced hd word
  | constant h => exact hd.not_mem_word (isAlphanum_of_isConstant h)
  | plain mark size payload =>
    intro member
    rcases List.mem_append.mp member with member | member
    · rcases List.mem_append.mp member with member | member
      · exact mark.not_mem hd member
      · exact size.not_mem hd member
    · obtain ⟨u, v, split⟩ := List.append_of_mem member
      exact unsigned (by simpa using (payload.outside hd split).2)

/-- A front that reaches beyond a character holds it. -/
theorem exists_of_beyond {p r x y : Text} {d : Char} (split : x ++ d :: y = p ++ r)
    (beyond : r.length ≤ y.length) : ∃ z, p = x ++ d :: z := by
  have split' : p ++ r = (x ++ [d]) ++ y := by simp [← split]
  obtain ⟨z, hp, _⟩ := exists_append_of_length_le split' beyond
  exact ⟨z, by simpa using hp⟩

/-- Beyond a character that stands in no operand but as a sign an operand goes only where that is
its sign, behind all that can precede the payload. -/
theorem splitFront_of_scan_beyond {x y : Text} {d : Char} (hd : IsOutside d)
    (beyond : (scan (x ++ d :: y)).2.length ≤ y.length) :
    (splitFront (x ++ d :: y)).2 = d :: y ∧ (d = '+' ∨ d = '-') := by
  cases hb : splitBraced? (x ++ d :: y) with
  | some pieces =>
    obtain ⟨name, rest⟩ := pieces
    obtain ⟨split, nonempty, word⟩ := splitBraced?_eq_some.mp hb
    rw [split, scan_braced rest nonempty word] at beyond
    have split' : x ++ d :: y = ('\x7b' :: name ++ ['\x7d']) ++ rest := by simp [split]
    obtain ⟨z, inside⟩ := exists_of_beyond split' beyond
    exact absurd (by rw [inside]; simp) (not_mem_braced hd word)
  | none =>
    cases hc : splitConstant? (x ++ d :: y) with
    | some pieces =>
      obtain ⟨w, rest⟩ := pieces
      obtain ⟨split, constant, word, dot⟩ := splitConstant?_eq_some.mp hc
      rw [split, scan_constant constant word dot] at beyond
      obtain ⟨z, rfl⟩ := exists_of_beyond split beyond
      exact absurd (by simp) (hd.not_mem_word (isAlphanum_of_isConstant constant))
    | none =>
      rw [scan_plain hb hc, splitPlain_eq] at beyond
      obtain ⟨mark, marked, size, split⟩ := splitFront_parts (x ++ d :: y)
      have other : d ∉ mark ++ (splitFront (x ++ d :: y)).1.2 := fun hm =>
        (List.mem_append.mp hm).elim (marked.not_mem hd) (size.not_mem hd)
      obtain ⟨u, hu⟩ : ∃ u, (splitFront (x ++ d :: y)).2 = u ++ d :: y := by
        rcases List.append_eq_append_iff.mp split with ⟨v, front, rest⟩ | ⟨v, _, rest⟩
        · cases v with
          | nil => exact ⟨[], rest.symm⟩
          | cons e v =>
            obtain ⟨rfl, _⟩ := List.cons.inj rest
            exact absurd (by rw [front]; simp) other
        · exact ⟨v, rest⟩
      obtain ⟨payload, whole⟩ := splitPayload_parts (splitFront (x ++ d :: y)).2
      obtain ⟨z, inside⟩ := exists_of_beyond (hu.symm.trans whole) beyond
      obtain ⟨rfl, signed⟩ := payload.outside hd inside
      exact ⟨hu, signed⟩

theorem isConstant_front {m : Option Modifier} {x k : Text} (mark : IsMark m x) (size : IsSize k) :
    Payload.isConstant (splitWord (x ++ k)).1 = false := by
  have all : ∀ u ∈ [] :: markLetters.map ([·]), ∀ v ∈ [] :: sizeTokens,
      Payload.isConstant (splitWord (u ++ v)).1 = false := by decide +kernel
  have modifier : lower x ∈ [] :: markLetters.map ([·]) := by
    cases m with
    | none =>
      rw [show x = [] from mark]
      exact List.mem_cons_self
    | some m =>
      obtain ⟨c, hc, rfl⟩ := mark
      exact List.mem_cons_of_mem _ (List.mem_map_of_mem (f := ([·])) (toLower_mem_of_ofChar? hc))
  have token : lower k ∈ [] :: sizeTokens := by
    rcases size with rfl | found
    · exact List.mem_cons_self
    · exact List.mem_cons_of_mem _ found
  have low := all _ modifier _ token
  rwa [← lower_append, splitWord_lower, isConstant_lower] at low

/-- All that precedes a payload is an operand without one. -/
theorem scan_front {x r : Text} (h : (splitFront (x ++ r)).2 = r) :
    scan x = (.plain (splitFront (x ++ r)).1.1 (splitFront (x ++ r)).1.2 [], []) := by
  have shorter := isCut_splitFront.within x r (by rw [h])
  have whole : (splitFront x).2 = [] := by
    rw [shorter] at h
    simpa using h
  obtain ⟨mark, marked, size, split⟩ := splitFront_parts x
  rw [whole, List.append_nil] at split
  have unbraced : splitBraced? x = none := by
    apply splitBraced?_eq_none
    cases x with
    | nil => exact stopsAt_nil _
    | cons c x =>
      have front : c.isAlphanum ∨ c = '~' ∨ c = ' ' := by
        have member : c ∈ mark ++ (splitFront (c :: x)).1.2 := by
          rw [← split]
          exact List.mem_cons_self
        rcases List.mem_append.mp member with hm | hm
        · exact (marked.chars c hm).imp_right .inl
        · exact (size.chars c hm).imp_right .inr
      simp only [stopsAt_cons, beq_eq_false_iff_ne, ne_eq]
      rintro rfl
      exact absurd front (by decide)
  have other : splitConstant? x = none := by
    have word := isConstant_front marked size
    rw [← split] at word
    simp [splitConstant?, word]
  rw [scan_plain unbraced other, splitPlain_eq, whole, shorter]
  rfl

end MemLogic.Operand.Spelling
