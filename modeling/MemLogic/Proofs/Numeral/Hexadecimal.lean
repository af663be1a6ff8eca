import MemLogic.Proofs.Numeral
import MemLogic.Proofs.Operand.Written
import Mathlib.Data.List.Lex
import Mathlib.Data.Nat.Digits.Lemmas

/-! Numbers in base 16: texts of hexadecimal digits spell one number where they agree up to letter
case and leading zeros, and rows of digits of one length are ordered as the numbers are. -/

namespace MemLogic.Numeral
open Text Operand.Spelling

def hexDigits : Text :=
  "0123456789abcdef".toList

/-- The value of a hexadecimal digit of either letter case. -/
def hexDigitValue (c : Char) : Nat :=
  hexDigits.idxOf c.toLower

/-- The number that hexadecimal digits spell, the most significant one first. -/
def ofHexadecimal (t : Text) : Nat :=
  Nat.ofDigits 16 (t.reverse.map hexDigitValue)

/-- The digits without leading zeros. -/
def significant (t : Text) : Text :=
  t.dropWhile (· == '0')

variable {c : Char} {x y : Text}

theorem hexadecimal_ne_nil (n : Nat) : hexadecimal n ≠ [] :=
  Nat.toDigits_ne_nil

theorem isHexDigit_hexadecimal (n : Nat) : ∀ c ∈ hexadecimal n, isHexDigit c :=
  forall_mem_hexadecimal (by decide) n

theorem isHexDigit_iff : isHexDigit c ↔ c.toLower ∈ hexDigits :=
  List.contains_iff_mem

theorem isHexDigit_of_mem (h : c ∈ hexDigits) : isHexDigit c := by
  have all : ∀ d ∈ hexDigits, isHexDigit d := by decide
  exact all c h

theorem mem_hexDigits_hexadecimal (n : Nat) : ∀ c ∈ hexadecimal n, c ∈ hexDigits :=
  forall_mem_hexadecimal (by decide) n

theorem hexDigitValue_lt (h : isHexDigit c) : hexDigitValue c < 16 :=
  List.idxOf_lt_length_of_mem (isHexDigit_iff.mp h)

theorem hexDigitValue_eq_zero : hexDigitValue c = 0 ↔ c = '0' := by
  have first : hexDigits = '0' :: hexDigits.tail := by decide
  rw [hexDigitValue, first, List.idxOf_cons, ← toLower_eq_iff (d := '0') (by decide) c]
  by_cases zero : c.toLower = '0'
  · simp [zero]
  · have other : ('0' == c.toLower) = false := beq_eq_false_iff_ne.mpr (Ne.symm zero)
    simp [zero, other]

/-- Values tell digits apart but for their letter case. -/
theorem lower_eq_map (h : ∀ c ∈ x, isHexDigit c) :
    lower x = (x.map hexDigitValue).map (hexDigits.getD · '0') := by
  rw [List.map_map]
  apply List.map_congr_left
  intro c member
  have digit : c.toLower ∈ hexDigits := isHexDigit_iff.mp (h c member)
  simp [hexDigitValue, List.getD_eq_getElem?_getD, List.getElem?_idxOf digit]

theorem ofHexadecimal_lower (x : Text) : ofHexadecimal (lower x) = ofHexadecimal x := by
  have value : hexDigitValue ∘ Char.toLower = hexDigitValue := by
    funext c
    simp [hexDigitValue]
  rw [ofHexadecimal, lower, ← List.map_reverse, List.map_map, value, ofHexadecimal]

/-- A text is its significant digits behind some zeros. -/
theorem exists_zeros (x : Text) : ∃ zeros, x = List.replicate zeros '0' ++ significant x := by
  have zeros : x.takeWhile (· == '0') = List.replicate (x.takeWhile (· == '0')).length '0' :=
    List.eq_replicate_iff.mpr ⟨rfl, fun c member => by simpa using List.mem_takeWhile_imp member⟩
  exact ⟨_, by rw [← zeros, significant, List.takeWhile_append_dropWhile]⟩

theorem isHexDigit_significant (h : ∀ c ∈ x, isHexDigit c) : ∀ c ∈ significant x, isHexDigit c :=
  fun c member => h c ((List.dropWhile_sublist _).subset member)

theorem significant_eq_self (h : StopsAt (· == '0') x) : significant x = x :=
  dropWhile_append_of_stopsAt (x := []) (by simp) h

theorem significant_leftpad (k : Nat) (x : Text) :
    significant (x.leftpad k '0') = significant x := by
  rw [significant, List.leftpad, List.dropWhile_append_of_pos (by simp), significant]

theorem leftpad_of_le {k : Nat} (long : k ≤ x.length) : x.leftpad k '0' = x := by
  rw [List.leftpad, Nat.sub_eq_zero_of_le long, List.replicate_zero, List.nil_append]

/-- Padding makes up for the zeros that were written in front. -/
theorem leftpad_significant {k : Nat} (short : x.length ≤ k) :
    (significant x).leftpad k '0' = x.leftpad k '0' := by
  obtain ⟨zeros, split⟩ := exists_zeros x
  have length : x.length = zeros + (significant x).length := by
    conv_lhs => rw [split, List.length_append, List.length_replicate]
  have total : k - (significant x).length = k - x.length + zeros := by omega
  rw [List.leftpad, total, List.replicate_add, List.append_assoc, ← split, List.leftpad]

theorem leftpad_eq_leftpad_iff {k : Nat} (hx : x.length ≤ k) (hy : y.length ≤ k) :
    x.leftpad k '0' = y.leftpad k '0' ↔ significant x = significant y := by
  constructor
  · intro same
    rw [← significant_leftpad k x, same, significant_leftpad]
  · intro same
    rw [← leftpad_significant hx, same, leftpad_significant hy]

theorem ofHexadecimal_significant (x : Text) : ofHexadecimal (significant x) = ofHexadecimal x := by
  obtain ⟨zeros, split⟩ := exists_zeros x
  have value : hexDigitValue '0' = 0 := by decide
  conv_rhs => rw [split]
  rw [ofHexadecimal, ofHexadecimal, List.reverse_append, List.map_append, List.reverse_replicate,
    List.map_replicate, value, Nat.ofDigits_append_replicate_zero]

theorem ofHexadecimal_concat (x : Text) (c : Char) :
    ofHexadecimal (x ++ [c]) = hexDigitValue c + 16 * ofHexadecimal x := by
  rw [ofHexadecimal, List.reverse_concat, List.map_cons, Nat.ofDigits_cons, ofHexadecimal]

/-- Digits spell the number that they are the digits of. -/
theorem ofHexadecimal_hexadecimal (n : Nat) : ofHexadecimal (hexadecimal n) = n := by
  have value : ∀ d < 16, hexDigitValue d.digitChar = d := by decide
  unfold hexadecimal
  induction n using Nat.strongRecOn with
  | ind n ih =>
    rw [Nat.toDigits_eq_if (by decide)]
    split
    · rename_i small
      simp [ofHexadecimal, value n small]
    · rename_i large
      rw [ofHexadecimal_concat, ih (n / 16) (Nat.div_lt_self (by omega) (by decide)),
        value _ (Nat.mod_lt _ (by decide)), Nat.mod_add_div]

/-- Zero alone is written with a zero in front. -/
theorem stopsAt_hexadecimal {n : Nat} (positive : 0 < n) :
    StopsAt (· == '0') (hexadecimal n) := by
  have digit : ∀ d < 16, 0 < d → d.digitChar ≠ '0' := by decide
  unfold hexadecimal
  induction n using Nat.strongRecOn with
  | ind n ih =>
    rw [Nat.toDigits_eq_if (by decide)]
    split
    · rename_i small
      simpa using digit n small positive
    · rename_i large
      have front := ih (n / 16) (Nat.div_lt_self positive (by decide)) (by omega)
      obtain ⟨d, r, split⟩ :=
        List.exists_cons_of_ne_nil (Nat.toDigits_ne_nil (b := 16) (n := n / 16))
      rw [split] at front ⊢
      exact front

theorem ofHexadecimal_leftpad (k : Nat) (x : Text) :
    ofHexadecimal (x.leftpad k '0') = ofHexadecimal x := by
  rw [← ofHexadecimal_significant, significant_leftpad, ofHexadecimal_significant]

/-- The digits spell the number, with the zeros in front of them too. -/
theorem leftpad_hexadecimal_injective {k n m : Nat}
    (h : (hexadecimal n).leftpad k '0' = (hexadecimal m).leftpad k '0') : n = m := by
  rw [← ofHexadecimal_hexadecimal n, ← ofHexadecimal_leftpad k, h, ofHexadecimal_leftpad,
    ofHexadecimal_hexadecimal]

theorem lower_eq_of_ofHexadecimal_eq (hx : ∀ c ∈ x, isHexDigit c) (hy : ∀ c ∈ y, isHexDigit c)
    (length : x.length = y.length) (same : ofHexadecimal x = ofHexadecimal y) :
    lower x = lower y := by
  have values : x.reverse.map hexDigitValue = y.reverse.map hexDigitValue := by
    refine Nat.ofDigits_inj_of_len_eq (by decide) (by simpa using length) ?_ ?_ same
    · simpa using fun c member => hexDigitValue_lt (hx c member)
    · simpa using fun c member => hexDigitValue_lt (hy c member)
  rw [List.map_reverse, List.map_reverse, List.reverse_inj] at values
  rw [lower_eq_map hx, lower_eq_map hy, values]

theorem digits_ofHexadecimal (h : ∀ c ∈ x, isHexDigit c) :
    Nat.digits 16 (ofHexadecimal x) = (significant x).reverse.map hexDigitValue := by
  -- Only without leading zeros is the list of digits that of the number.
  rw [← ofHexadecimal_significant, ofHexadecimal]
  refine Nat.digits_ofDigits 16 (by decide) _ ?_ ?_
  · simpa using fun c member => hexDigitValue_lt (isHexDigit_significant h c member)
  · intro nonempty
    have present : significant x ≠ [] := by simpa using nonempty
    have first : (significant x).head present ≠ '0' := by
      simpa [significant] using List.head_dropWhile_not (· == '0') present
    rw [List.getLast_map, List.getLast_reverse, Ne, hexDigitValue_eq_zero]
    exact first

theorem length_significant (h : ∀ c ∈ x, isHexDigit c) :
    (significant x).length = (Nat.digits 16 (ofHexadecimal x)).length := by
  rw [digits_ofHexadecimal h, List.length_map, List.length_reverse]

theorem ofHexadecimal_eq_iff (hx : ∀ c ∈ x, isHexDigit c) (hy : ∀ c ∈ y, isHexDigit c) :
    ofHexadecimal x = ofHexadecimal y ↔ lower (significant x) = lower (significant y) := by
  constructor
  · intro same
    have digits := digits_ofHexadecimal hx
    rw [same, digits_ofHexadecimal hy, List.map_reverse, List.map_reverse,
      List.reverse_inj] at digits
    rw [lower_eq_map (isHexDigit_significant hx), lower_eq_map (isHexDigit_significant hy), digits]
  · intro same
    rw [← ofHexadecimal_significant x, ← ofHexadecimal_lower, same, ofHexadecimal_lower,
      ofHexadecimal_significant]

theorem ofHexadecimal_cons (c : Char) (x : Text) :
    ofHexadecimal (c :: x) = ofHexadecimal x + 16 ^ x.length * hexDigitValue c := by
  rw [ofHexadecimal, List.map_reverse, List.map_cons, Nat.ofDigits_reverse_cons, List.length_map,
    ← List.map_reverse, ofHexadecimal]

theorem ofHexadecimal_lt (h : ∀ c ∈ x, isHexDigit c) : ofHexadecimal x < 16 ^ x.length := by
  have small : ∀ d ∈ x.reverse.map hexDigitValue, d < 16 := by
    simpa using fun c member => hexDigitValue_lt (h c member)
  simpa [ofHexadecimal] using Nat.ofDigits_lt_base_pow_length (by decide) small

/-- Rows of digits of one length are ordered as dictionaries order them, where the digits stand in
one letter case. -/
theorem ofHexadecimal_lt_iff (hx : ∀ c ∈ x, c ∈ hexDigits) (hy : ∀ c ∈ y, c ∈ hexDigits)
    (length : x.length = y.length) :
    ofHexadecimal x < ofHexadecimal y ↔ List.Lex (· < ·) x y := by
  have digits : ∀ c ∈ hexDigits, ∀ d ∈ hexDigits,
      (c < d ↔ hexDigitValue c < hexDigitValue d) ∧
        (c = d ↔ hexDigitValue c = hexDigitValue d) := by decide +kernel
  induction x generalizing y with
  | nil =>
    obtain rfl := List.eq_nil_of_length_eq_zero length.symm
    simp
  | cons c x ih =>
    obtain ⟨d, y, rfl⟩ := List.exists_cons_of_length_eq_add_one length.symm
    rw [List.forall_mem_cons] at hx hy
    have rest : x.length = y.length := by simpa using length
    obtain ⟨smaller, equal⟩ := digits c hx.1 d hy.1
    have tail : ofHexadecimal x < ofHexadecimal y ↔ List.Lex (· < ·) x y := ih hx.2 hy.2 rest
    rw [List.cons_lex_cons_iff, smaller, equal, ← tail, ofHexadecimal_cons, ofHexadecimal_cons,
      rest]
    have below := ofHexadecimal_lt fun c member => isHexDigit_of_mem (hx.2 c member)
    have below' := ofHexadecimal_lt fun c member => isHexDigit_of_mem (hy.2 c member)
    rw [rest] at below
    -- a greater digit in front outweighs all digits behind it
    rcases Nat.lt_trichotomy (hexDigitValue c) (hexDigitValue d) with less | same | more
    · have weight := Nat.mul_le_mul_left (16 ^ y.length) less
      rw [Nat.mul_succ] at weight
      omega
    · rw [same]
      omega
    · have weight := Nat.mul_le_mul_left (16 ^ y.length) more
      rw [Nat.mul_succ] at weight
      omega

end MemLogic.Numeral
