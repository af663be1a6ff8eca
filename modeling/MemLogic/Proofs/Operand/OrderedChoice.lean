import MemLogic.Proofs.Operand.OnePass
import MemLogic.Proofs.Operand.Pattern

/-! The operand grammar as ordered choice against the reader in one pass: to give a mark or a size
back neither rescues a text nor changes how it is read. -/

namespace MemLogic.Operand.Grammar
open Text Spelling Pattern

variable {t u v rest : Text} {s : Spelling}

theorem mem_braced {p : Pattern Text} {name : Text} : (name, rest) ∈ braced p t ↔
    ∃ inner, t = '\x7b' :: inner ∧ (name, '\x7d' :: rest) ∈ p inner := by
  simp only [braced, mem_andThen, mem_one, mem_yield, beq_iff_eq]
  constructor
  · rintro ⟨_, inner, ⟨rfl, rfl⟩, name, _, taken, _, rest, ⟨rfl, rfl⟩, rfl, rfl⟩
    exact ⟨inner, rfl, taken⟩
  · rintro ⟨inner, rfl, taken⟩
    exact ⟨_, inner, ⟨rfl, rfl⟩, name, _, taken, _, rest, ⟨rfl, rfl⟩, rfl, rfl⟩

theorem mem_recalled : (s, rest) ∈ recalled t ↔
    s = .recalled ∧ ∃ name, splitBraced? t = some (name, rest) ∧ lower name = "recall".toList := by
  simp only [recalled, mem_andThen, mem_yield, mem_braced, mem_token, List.mem_singleton]
  constructor
  · rintro ⟨name, _, ⟨inner, rfl, rfl, same⟩, rfl, rfl⟩
    exact ⟨rfl, name, splitBraced?_eq_some.mpr ⟨rfl, letters_of_recall same⟩, same⟩
  · rintro ⟨rfl, name, braced, same⟩
    obtain ⟨rfl, _⟩ := splitBraced?_eq_some.mp braced
    exact ⟨name, rest, ⟨_, rfl, rfl, same⟩, rfl, rfl⟩

theorem mem_named : (s, rest) ∈ named t ↔
    ∃ name, splitBraced? t = some (name, rest) ∧ s = .named name := by
  simp only [named, mem_andThen, mem_yield, mem_braced, mem_many1, splitBraced?_eq_some]
  constructor
  · rintro ⟨name, _, ⟨_, rfl, rfl, nonempty, word⟩, rfl, rfl⟩
    exact ⟨name, ⟨rfl, nonempty, word⟩, rfl⟩
  · rintro ⟨name, ⟨rfl, nonempty, word⟩, rfl⟩
    exact ⟨name, rest, ⟨_, rfl, rfl, nonempty, word⟩, rfl, rfl⟩

theorem mem_constant : (s, rest) ∈ constant t ↔
    ∃ w, t = w ++ rest ∧ Payload.isConstant w ∧ StopsAt Char.isAlphanum rest ∧ s = .constant w := by
  simp only [constant, mem_andThen, mem_yield, mem_token, mem_unlessNext]
  constructor
  · rintro ⟨w, u, ⟨rfl, known⟩, _, _, ⟨rfl, stop⟩, rfl, rfl⟩
    exact ⟨w, rfl, by simpa [Payload.isConstant] using known, stop, rfl⟩
  · rintro ⟨w, rfl, known, stop, rfl⟩
    exact ⟨w, rest, ⟨rfl, lower_mem_constantWords known⟩, (), rest, ⟨rfl, stop⟩, rfl, rfl⟩

theorem mem_sign {sign : Option Char} :
    (sign, rest) ∈ optional (one fun c => c == '+' || c == '-') t ↔ t = sign.toList ++ rest ∧
      (sign.toList = [] ∨ sign.toList = ['+'] ∨ sign.toList = ['-']) := by
  simp only [mem_optional, mem_one, Bool.or_eq_true, beq_iff_eq]
  constructor
  · rintro (⟨c, rfl, rfl, signed⟩ | ⟨rfl, rfl⟩)
    · exact ⟨rfl, .inr (by simpa using signed)⟩
    · exact ⟨rfl, .inl rfl⟩
  · rintro ⟨rfl, signed⟩
    cases sign with
    | none => exact .inr ⟨rfl, rfl⟩
    | some c => exact .inl ⟨c, rfl, rfl, by simpa using signed⟩

theorem mem_fraction {fraction : Option Text} :
    (fraction, rest) ∈ optional (andThen (one (· == '.')) fun dot =>
      andThen word fun w => yield (dot :: w)) t ↔ t = fraction.getD [] ++ rest ∧
        (fraction = none ∨ ∃ w, fraction = some ('.' :: w) ∧ ∀ c ∈ w, c.isAlphanum) := by
  simp only [mem_optional, mem_andThen, mem_yield, mem_one, mem_word, beq_iff_eq]
  constructor
  · rintro (⟨_, rfl, _, _, ⟨rfl, rfl⟩, w, _, ⟨rfl, word⟩, rfl, rfl⟩ | ⟨rfl, rfl⟩)
    · exact ⟨rfl, .inr ⟨w, rfl, word⟩⟩
    · exact ⟨rfl, .inl rfl⟩
  · rintro ⟨rfl, rfl | ⟨w, rfl, word⟩⟩
    · exact .inr ⟨rfl, rfl⟩
    · exact .inl ⟨_, rfl, '.', _, ⟨rfl, rfl⟩, w, _, ⟨rfl, word⟩, rfl, rfl⟩

/-- The payloads that a text starts with are those that the pattern takes off it. -/
theorem mem_payload {p : Text} : (p, rest) ∈ payload t ↔ IsPayload p ∧ t = p ++ rest := by
  simp only [payload, mem_andThen (p := optional _), mem_andThen (p := word), mem_sign,
    mem_fraction, mem_word, mem_yield]
  constructor
  · rintro ⟨sign, _, ⟨rfl, signed⟩, whole, _, ⟨rfl, word⟩, fraction, _, ⟨rfl, dotted⟩, rfl, rfl⟩
    refine ⟨⟨_, _, _, rfl, signed, word, ?_⟩, by simp⟩
    rcases dotted with rfl | ⟨w, rfl, last⟩
    · exact .inl rfl
    · exact .inr ⟨w, rfl, last⟩
  · rintro ⟨payload, rfl⟩
    obtain ⟨sign, whole, fraction, rfl, signed, word, dotted⟩ := payload.parts
    obtain ⟨sign, rfl⟩ : ∃ o : Option Char, sign = o.toList := by
      rcases signed with rfl | rfl | rfl
      · exact ⟨none, rfl⟩
      · exact ⟨some '+', rfl⟩
      · exact ⟨some '-', rfl⟩
    obtain ⟨fraction, rfl, shaped⟩ : ∃ o : Option Text, fraction = o.getD [] ∧
        (o = none ∨ ∃ w, o = some ('.' :: w) ∧ ∀ c ∈ w, c.isAlphanum) := by
      rcases dotted with rfl | ⟨w, rfl, last⟩
      · exact ⟨none, rfl, .inl rfl⟩
      · exact ⟨some ('.' :: w), rfl, .inr ⟨w, rfl, last⟩⟩
    exact ⟨sign, _, ⟨by simp, signed⟩, whole, _, ⟨rfl, word⟩, fraction, _, ⟨rfl, shaped⟩, rfl, rfl⟩

/-- The pattern takes a modifier in one way at most, and where the reader does. -/
theorem modifier_eq (t : Text) :
    modifier t = (splitModifier t).1.toList.map (·, (splitModifier t).2) := by
  cases t with
  | nil => rfl
  | cons c r =>
    cases mark : Modifier.ofChar? c with
    | none => simp [modifier, andThen, one, splitModifier, mark]
    | some m =>
      cases m with
      | float =>
        cases r with
        | nil => simp [modifier, andThen, one, splitModifier, mark, unlessNext, yield]
        | cons e r =>
          by_cases follows : e.toLower ∈ encodingLetters <;>
            simp [modifier, andThen, one, splitModifier, mark, unlessNext, follows, yield]
      | _ => simp [modifier, andThen, one, splitModifier, mark, yield]

/-- The mark that the reader takes, or none, is what the pattern prefers. -/
theorem head?_optional_modifier (t : Text) :
    (optional modifier t).head? = some (splitModifier t) := by
  rw [Pattern.optional, modifier_eq]
  cases found : splitModifier t with
  | mk m u =>
    cases m with
    | some m => rfl
    | none =>
      have untouched : u = t := by
        rcases splitModifier_cases t with h | ⟨_, _, _, _, h, _⟩
        · exact (Prod.mk.inj (found.symm.trans h)).2
        · exact absurd (Prod.mk.inj (found.symm.trans h)).1 (by simp)
      rw [untouched]
      rfl

/-- The size that the reader takes, or none, is what the pattern prefers. -/
theorem head?_optional_size (t : Text) : ∃ size : Option Text, size.getD [] = (splitSize t).1 ∧
    (optional (token sizeTokens) t).head? = some (size, (splitSize t).2) := by
  have first := List.head?_filter (p := (·.isPrefixOf (lower t))) (l := sizeTokens)
  cases found : sizeTokens.find? (·.isPrefixOf (lower t)) with
  | none =>
    rw [found, List.head?_eq_none_iff] at first
    exact ⟨none, by simp [splitSize, splitToken, found],
      by simp [Pattern.optional, token, first, splitSize, splitToken, found]⟩
  | some k =>
    rw [found] at first
    obtain ⟨more, fitting⟩ := List.head?_eq_some_iff.mp first
    exact ⟨some (t.take k.length), by simp [splitSize, splitToken, found],
      by simp [Pattern.optional, token, fitting, splitSize, splitToken, found]⟩

/-- Whatever is given back, the reader goes on at least as far before the payload. -/
theorem splitFront_suffix {m : Option Modifier} {size : Option Text}
    (mark : (m, u) ∈ optional modifier t) (token : (size, v) ∈ optional (token sizeTokens) u) :
    (splitFront t).2 <:+ v := by
  have sized : (splitSize u).2 <:+ v := by
    rcases mem_optional.mp token with ⟨k, rfl, taken⟩ | ⟨rfl, rfl⟩
    · obtain ⟨rfl, known⟩ := mem_token.mp taken
      exact splitSize_suffix known v
    · exact isCut_splitSize.suffix _
  rcases mem_optional.mp mark with ⟨m, rfl, marked⟩ | ⟨rfl, rfl⟩
  · rw [modifier_eq] at marked
    obtain ⟨_, _, same⟩ := List.mem_map.mp marked
    obtain ⟨_, rfl⟩ := Prod.mk.inj same
    exact sized
  · rcases mem_optional.mp token with ⟨k, rfl, taken⟩ | ⟨rfl, rfl⟩
    · obtain ⟨rfl, known⟩ := mem_token.mp taken
      have unmarked : (splitFront (k ++ v)).2 = (splitSize (k ++ v)).2 := by
        rw [splitFront, splitModifier_unmarked known]
      rwa [unmarked]
    · exact isCut_splitFront.suffix _

/-- What is read plainly has the parts that the reader takes, or is refused whatever is given
back. -/
theorem whole?_plain (t : Text) : whole? plain t = if IsPayload (splitFront t).2
    then some (.plain (splitFront t).1.1 (splitFront t).1.2 (splitFront t).2) else none := by
  have parts : ∀ {m : Option Modifier} {k u : Text} {s : Spelling},
      (s, []) ∈ andThen payload (fun p => yield (.plain m k p)) u ↔
        IsPayload u ∧ s = .plain m k u := by
    intro m k u s
    simp only [mem_andThen, mem_payload, mem_yield]
    constructor
    · rintro ⟨p, _, ⟨accepted, rfl⟩, rfl, rfl⟩
      simpa using accepted
    · rintro ⟨accepted, rfl⟩
      exact ⟨u, [], ⟨accepted, (List.append_nil u).symm⟩, rfl, rfl⟩
  split
  · rename_i accepted
    obtain ⟨size, token, taken⟩ := head?_optional_size (splitModifier t).2
    refine whole?_andThen (head?_optional_modifier t) (whole?_andThen taken ?_)
    rw [token]
    exact whole?_eq_some (parts.mpr ⟨accepted, rfl⟩) fun s member => (parts.mp member).2
  · rename_i refused
    refine whole?_eq_none.mpr fun s member => refused ?_
    obtain ⟨m, u, mark, sized⟩ := mem_andThen.mp member
    obtain ⟨size, v, token, rest⟩ := mem_andThen.mp sized
    exact (parts.mp rest).1.of_suffix (splitFront_suffix mark token)

theorem splitBraced?_eq_bracedName {name : Text} :
    splitBraced? t = some (name, []) ↔ bracedName? t = some name := by
  rw [splitBraced?_eq_some, bracedName?_eq_some]

/-- In braces the word that recalls is preferred to the name that it could be. -/
theorem head?_braced (t : Text) : (recalled t ++ named t).head? =
    (splitBraced? t).map fun pieces => (ofName pieces.1, pieces.2) := by
  rw [List.head?_append]
  cases cut : splitBraced? t with
  | some pieces =>
    obtain ⟨name, rest⟩ := pieces
    have same : ∀ {name' rest'}, splitBraced? t = some (name', rest') →
        name' = name ∧ rest' = rest := fun cut' =>
      Prod.mk.inj (Option.some.inj (cut'.symm.trans cut))
    rw [Option.map_some, ofName]
    split
    · rename_i word
      have first : (recalled t).head? = some (.recalled, rest) := by
        refine head?_of_forall (mem_recalled.mpr ⟨rfl, name, cut, word⟩) ?_
        rintro ⟨_, _⟩ member
        obtain ⟨rfl, _, cut', _⟩ := mem_recalled.mp member
        rw [(same cut').2]
      rw [first, Option.some_or]
    · rename_i other
      have first : recalled t = [] := by
        refine List.eq_nil_iff_forall_not_mem.mpr ?_
        rintro ⟨_, _⟩ member
        obtain ⟨_, _, cut', word⟩ := mem_recalled.mp member
        exact other ((same cut').1 ▸ word)
      rw [first, List.head?_nil, Option.none_or]
      refine head?_of_forall (mem_named.mpr ⟨name, cut, rfl⟩) ?_
      rintro ⟨_, _⟩ member
      obtain ⟨_, cut', rfl⟩ := mem_named.mp member
      rw [(same cut').1, (same cut').2]
  | none =>
    have uncut : ∀ {pieces}, splitBraced? t ≠ some pieces := fun cut' =>
      Option.some_ne_none _ (cut'.symm.trans cut)
    have first : recalled t = [] := by
      refine List.eq_nil_iff_forall_not_mem.mpr ?_
      rintro ⟨_, _⟩ member
      obtain ⟨_, _, cut', _⟩ := mem_recalled.mp member
      exact uncut cut'
    have second : named t = [] := by
      refine List.eq_nil_iff_forall_not_mem.mpr ?_
      rintro ⟨_, _⟩ member
      obtain ⟨_, cut', _⟩ := mem_named.mp member
      exact uncut cut'
    rw [first, second]
    rfl

/-- In braces there is one way to go on, or none. -/
theorem whole?_braced (t : Text) :
    (whole? recalled t).or (whole? named t) = (bracedName? t).map ofName := by
  have joined : (whole? recalled t).or (whole? named t) =
      whole? (fun t => recalled t ++ named t) t := by
    simp [whole?, List.find?_append, Option.map_or]
  rw [joined]
  cases braced : bracedName? t with
  | some name =>
    have first := head?_braced t
    rw [splitBraced?_eq_bracedName.mpr braced, Option.map_some, List.head?_eq_some_iff] at first
    obtain ⟨more, order⟩ := first
    rw [whole?, order]
    rfl
  | none =>
    refine whole?_eq_none.mpr fun s member => ?_
    obtain ⟨name, cut⟩ : ∃ name, splitBraced? t = some (name, []) := by
      rcases List.mem_append.mp member with member | member
      · obtain ⟨_, name, cut, _⟩ := mem_recalled.mp member
        exact ⟨name, cut⟩
      · obtain ⟨name, cut, _⟩ := mem_named.mp member
        exact ⟨name, cut⟩
    exact Option.some_ne_none _ ((splitBraced?_eq_bracedName.mp cut).symm.trans braced)

theorem whole?_constant (t : Text) :
    whole? constant t = if Payload.isConstant t then some (.constant t) else none := by
  refine whole?_eq_of_forall fun s => ?_
  rw [mem_constant, Option.ite_none_right_eq_some, Option.some.injEq]
  constructor
  · rintro ⟨w, rfl, known, _, rfl⟩
    simpa using known
  · rintro ⟨known, rfl⟩
    exact ⟨t, (List.append_nil t).symm, known, stopsAt_nil _, rfl⟩

/-- The alternatives in their order: braces, constants, and all else. -/
theorem read?_eq_or (t : Text) : read? t =
    ((bracedName? t).map ofName).or ((whole? constant t).or (whole? plain t)) := by
  have ordered : read? t = whole? (choice [recalled, named, constant, plain]) t := rfl
  have nothing : whole? (choice ([] : List (Pattern Spelling))) t = none := rfl
  rw [ordered, whole?_choice_cons, whole?_choice_cons, whole?_choice_cons, whole?_choice_cons,
    nothing, Option.or_none, ← whole?_braced, Option.or_assoc]

/-- The pattern and the reader in one pass agree on every text. -/
theorem read?_eq (t : Text) : read? t = Spelling.read? t := by
  rw [read?_eq_or, whole?_constant, whole?_plain]
  cases braced : bracedName? t with
  | some name => rw [read?_bracedName braced, Option.map_some, Option.some_or]
  | none =>
    rw [Option.map_none, Option.none_or]
    split
    · rename_i word
      rw [Operand.Spelling.read?_constant word, Option.some_or]
    · rename_i other
      rw [Option.none_or, read?_eq_front braced other]

/-- Reads a whole text by the pattern. -/
def read (t : Text) : Except Error Operand :=
  match read? t with
  | some spelling => spelling.operand
  | none => .error (.noShape t)

end Grammar

/-- Reading needs nothing given back: the reader and the pattern, which can give back a sign, a size
or a modifier, come to what is read in one pass, and where that refuses a text no choice of the
pattern takes all of it. -/
theorem read_needs_no_backtracking (t : Text) :
    read t = readOnce t ∧ Grammar.read t = readOnce t ∧
      ((∃ segment, readOnce t = .error (.noShape segment)) →
        ∀ s, (s, []) ∉ Grammar.operand t) := by
  have reader := read_eq_readOnce t
  have pattern := Grammar.read?_eq t
  refine ⟨reader, ?_, ?_⟩
  · rw [← reader, Grammar.read, pattern]
    rfl
  · rintro ⟨segment, refused⟩
    have none := (read_eq_noShape.mp (reader.trans refused)).1
    exact Grammar.Pattern.whole?_eq_none.mp (pattern.trans none)

end MemLogic.Operand
