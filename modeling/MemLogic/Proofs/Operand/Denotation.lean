import MemLogic.Proofs.Operand.Literal

/-! Well-formed operands: the texts with one plain meaning, and that they are read as it. -/

namespace MemLogic.Operand
open Text Spelling

/-- The text of a well-formed operand and what it stands for. Words with a capital S are left out,
as a condition is cut there. -/
inductive Denotes : Text → Operand → Prop where
  | memory {m : Option Modifier} {mark token digits : Text} {size : Size} (marked : IsMark m mark)
      (memory : m ≠ some .decimal)
      (sized : lower token = lower size.token ∨ lower token = "0x ".toList ∧ size = .bits16)
      (float : m = some .float → size.readsFloat = false) (nonempty : digits ≠ [])
      (hex : ∀ c ∈ digits, isHexDigit c) : Denotes (mark ++ (token ++ digits))
        ⟨(m.map Modifier.kind).getD (if size.readsFloat then .float else .mem), some size,
          Payload.pad digits⟩
  | decimal {mark sign digits : Text} (marked : mark = [] ∨ lower mark = ['v'])
      (signed : sign = [] ∨ sign = ['+']) (nonempty : digits ≠ []) (digit : ∀ d ∈ digits, d.isDigit)
      (short : digits.length ≤ Numeral.maxDigits) : Denotes (mark ++ (sign ++ digits))
        ⟨.value, none, Payload.ofNatural (Numeral.ofDigits (digits.map Text.digit))⟩
  | hexadecimal {mark digits : Text} (marked : lower mark = ['h']) (nonempty : digits ≠ [])
      (hex : ∀ c ∈ digits, isHexDigit c) :
      Denotes (mark ++ digits) ⟨.value, none, Payload.pad digits⟩
  | verbatim {p : Text} (number : Payload.IsNumber p) (plain : p.head? = some '-' ∨ '.' ∈ p) :
      Denotes p ⟨.value, none, p⟩
  | float {mark p : Text} (marked : lower mark = ['f']) (number : Payload.IsNumber p) :
      Denotes (mark ++ p) ⟨.float, none, p⟩
  | constant {w : Text} (constant : Payload.isConstant w) (uncut : 'S' ∉ w) :
      Denotes w ⟨.value, none, w⟩
  | recalled {w : Text} (word : lower w = "recall".toList) :
      Denotes ('\x7b' :: w ++ ['\x7d']) ⟨.recalled, none, []⟩
  | named {name : Text} (nonempty : name ≠ []) (word : ∀ c ∈ name, c.isAlphanum)
      (other : lower name ≠ "recall".toList) (uncut : 'S' ∉ name) :
      Denotes ('\x7b' :: name ++ ['\x7d']) ⟨.named, none, name⟩

/-- A one-letter mark is that of its modifier. -/
theorem isMark_of_lower {mark : Text} {d : Char} {m : Modifier}
    (known : Modifier.ofChar? d = some m) (h : lower mark = [d]) : IsMark (some m) mark := by
  obtain ⟨c, rfl⟩ : ∃ c, mark = [c] := by
    have one := congrArg List.length h
    exact List.length_eq_one_iff.mp (by simpa using one)
  obtain rfl : c.toLower = d := by simpa using h
  exact ⟨c, by rwa [ofChar?_toLower] at known, rfl⟩

theorem lower_token_head {size : Size} {token : Text}
    (sized : lower token = lower size.token ∨ lower token = "0x ".toList ∧ size = .bits16)
    (whole : size.readsFloat = false) : token.head? = some '0' := by
  have known : ∀ s ∈ Size.all, s.readsFloat = false → (lower s.token).head? = some '0' := by decide
  have zero : (lower token).head? = some '0' := by
    rcases sized with h | ⟨h, _⟩
    · rw [h]
      exact known size (Size.mem_all size) whole
    · rw [h]
      rfl
  cases token with
  | nil => simp at zero
  | cons c token =>
    have low : c.toLower = '0' := by simpa using zero
    rw [toLower_eq_iff (by decide)] at low
    simp [low]

theorem lower_token_known {size : Size} {token : Text}
    (sized : lower token = lower size.token ∨ lower token = "0x ".toList ∧ size = .bits16) :
    lower token ∈ sizeTokens ∧ lower token ≠ ['h'] := by
  have known : ∀ s ∈ Size.all, lower s.token ∈ sizeTokens ∧ lower s.token ≠ ['h'] := by decide
  rcases sized with h | ⟨h, _⟩
  · rw [h]
    exact known size (Size.mem_all size)
  · rw [h]
    decide

/-- What a well-formed operand ends with is not taken off as a mark or a size. -/
theorem Denotes.splitFront_ne_nil {t : Text} {o : Operand} (h : Denotes t o) :
    (splitFront t).2 ≠ [] := by
  cases h with
  | memory marked memory sized float nonempty hex =>
    rw [splitFront_sized marked (lower_token_known sized).1
      (fun hm => lower_token_head sized (float hm)) hex]
    exact nonempty
  | @decimal mark sign digits marked signed nonempty digit short =>
    obtain ⟨m, mark⟩ : ∃ m, IsMark m mark := by
      rcases marked with h | h
      · exact ⟨none, h⟩
      · exact ⟨some .decimal, isMark_of_lower rfl h⟩
    have number := Payload.isNumber_decimal signed nonempty digit
    rw [splitFront_unsized mark number.ne_nil number.start number.hasHexMark]
    exact number.ne_nil
  | @hexadecimal mark digits marked nonempty hex =>
    have token : lower mark ∈ sizeTokens := by
      rw [marked]
      decide
    have front := splitFront_sized (m := none) rfl token (by simp) hex
    rw [List.nil_append] at front
    rw [front]
    exact nonempty
  | verbatim number plain =>
    have front := splitFront_unsized (m := none) rfl number.ne_nil number.start number.hasHexMark
    rw [List.nil_append] at front
    rw [front]
    exact number.ne_nil
  | float marked number =>
    rw [splitFront_unsized (isMark_of_lower rfl marked) number.ne_nil number.start
      number.hasHexMark]
    exact number.ne_nil
  | constant constant uncut =>
    obtain ⟨_, c, first, _⟩ := splitFront_constant constant []
    rw [List.append_nil] at first
    intro empty
    rw [empty] at first
    exact absurd first (by simp)
  | recalled | named => exact List.cons_ne_nil _ _

theorem read_memory {m : Option Modifier} {mark token digits : Text} {size : Size}
    (marked : IsMark m mark) (memory : m ≠ some .decimal)
    (sized : lower token = lower size.token ∨ lower token = "0x ".toList ∧ size = .bits16)
    (float : m = some .float → size.readsFloat = false) (nonempty : digits ≠ [])
    (hex : ∀ c ∈ digits, isHexDigit c) : read (mark ++ (token ++ digits)) =
      .ok ⟨(m.map Modifier.kind).getD (if size.readsFloat then .float else .mem), some size,
        Payload.pad digits⟩ := by
  obtain ⟨known, other⟩ := lower_token_known sized
  have present : token ≠ [] := lower_eq_nil.not.mp (sizeTokens_ne_nil _ known)
  rw [read_sized marked known (fun hm => lower_token_head sized (float hm)) hex, operand,
    if_neg present, if_neg other, Size.ofToken_eq_ok sized]
  have resolved : plainOperand m (some size) digits = .ok
      ⟨(m.map Modifier.kind).getD (if size.readsFloat then .float else .mem), some size,
        Payload.ofAddress digits⟩ := by
    cases m with
    | none => rfl
    | some m =>
      cases m with
      | decimal => exact absurd rfl memory
      | _ => rfl
  rw [← Payload.ofAddress_hex nonempty hex]
  exact resolved

theorem read_braced {name : Text} (nonempty : name ≠ []) (word : ∀ c ∈ name, c.isAlphanum) :
    read ('\x7b' :: name ++ ['\x7d']) = (ofName name).operand :=
  read_eq_operand (read?_braced nonempty word)

/-- A well-formed operand is read as what it stands for. -/
theorem Denotes.read_eq_ok {t : Text} {o : Operand} (h : Denotes t o) : read t = .ok o := by
  cases h with
  | memory marked memory sized float nonempty hex =>
    exact read_memory marked memory sized float nonempty hex
  | @decimal mark sign digits marked signed nonempty digit short =>
    have counted : Numeral.read (digits.map Text.digit) =
        .ok (Numeral.ofDigits (digits.map Text.digit)) := by
      rw [Numeral.read, List.length_map, if_neg (Nat.not_lt.mpr short)]
    rcases marked with h | h
    · rw [read_decimal (m := none) h (by simp) signed nonempty digit, counted]
      rfl
    · rw [read_decimal (m := some .decimal) (isMark_of_lower rfl h) (by simp) signed nonempty digit,
        counted]
      rfl
  | @hexadecimal mark digits marked nonempty hex =>
    have token : lower mark ∈ sizeTokens := by
      rw [marked]
      decide
    have present : mark ≠ [] := lower_eq_nil.not.mp (sizeTokens_ne_nil _ token)
    have sized := read_sized (m := none) rfl token (by simp) hex
    rw [List.nil_append] at sized
    rw [sized, operand, if_neg present, if_pos marked, Payload.ofAddress_hex nonempty hex]
  | verbatim number plain =>
    have unsized := read_unsized (m := none) rfl number.isPayload number.ne_nil number.start
      number.hasHexMark
    rw [List.nil_append] at unsized
    have kept : Payload.ofLiteral t = .ok t := by
      rcases plain with h | h
      · simp [Payload.ofLiteral, number.ne_nil, h]
      · simp [Payload.ofLiteral, number.ne_nil, h]
    rw [unsized]
    simp only [plainOperand, kept]
    rfl
  | @float mark p marked number =>
    rw [read_unsized (isMark_of_lower rfl marked) number.isPayload number.ne_nil number.start
      number.hasHexMark]
    rfl
  | @constant w constant uncut =>
    rw [read_eq_operand (read?_constant constant)]
    rfl
  | @recalled w word =>
    obtain ⟨nonempty, letters⟩ := letters_of_recall word
    rw [read_braced nonempty letters, ofName, if_pos word]
    rfl
  | named nonempty word other uncut =>
    rw [read_braced nonempty word, ofName, if_neg other]
    rfl

end MemLogic.Operand
