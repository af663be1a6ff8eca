import MemLogic.Json
import MemLogic.Proofs.Numeral.Hexadecimal

/-! Quotations: the escapes of characters form a prefix code, so that a quoted text and its end can
be told from a longer text. -/

namespace MemLogic.Json

section Units
variable {n m : Nat} {x y : Text}

theorem length_escapeUnit (h : n < 0x10000) : (escapeUnit n).length = 6 := by
  have digits : (Nat.toDigits 16 n).length ≤ 4 :=
    (Nat.length_toDigits_le_iff (by decide) (by decide)).mpr h
  simp only [escapeUnit, List.length_cons, List.length_leftpad]
  omega

theorem escapeUnit_injective (h : escapeUnit n = escapeUnit m) : n = m :=
  Numeral.leftpad_hexadecimal_injective (List.cons.inj (List.cons.inj h).2).2

theorem flatMap_escapeUnit_injective {ns ms : List Nat} (hn : n < 0x10000) (hm : m < 0x10000)
    (h : (n :: ns).flatMap escapeUnit ++ x = (m :: ms).flatMap escapeUnit ++ y) :
    n = m ∧ ns.flatMap escapeUnit ++ x = ms.flatMap escapeUnit ++ y := by
  simp only [List.flatMap_cons, List.append_assoc] at h
  obtain ⟨unit, rest⟩ :=
    List.append_inj h ((length_escapeUnit hn).trans (length_escapeUnit hm).symm)
  exact ⟨escapeUnit_injective unit, rest⟩

/-- The UTF-16 units of a character. -/
def units (c : Char) : List Nat :=
  if c.toNat < 0x10000 then [c.toNat]
  else [0xd800 + (c.toNat - 0x10000) / 0x400, 0xdc00 + (c.toNat - 0x10000) % 0x400]

/-- No character has the number of a unit that stands for a half of another. -/
theorem toNat_not_surrogate (c : Char) : c.toNat < 0xd800 ∨ 0xdfff < c.toNat :=
  c.valid.imp id And.left

theorem toNat_lt (c : Char) : c.toNat < 0x110000 := by
  rcases c.valid with low | ⟨_, high⟩
  · exact Nat.lt_trans low (by decide)
  · exact high

/-- Whether one unit is a character or a half of one can be told from its number. -/
theorem units_append_injective {c d : Char}
    (h : (units c).flatMap escapeUnit ++ x = (units d).flatMap escapeUnit ++ y) :
    c = d ∧ x = y := by
  have apart := toNat_not_surrogate c
  have apart' := toNat_not_surrogate d
  have bound := toNat_lt c
  have bound' := toNat_lt d
  unfold units at h
  split at h
  · split at h
    · obtain ⟨same, rest⟩ := flatMap_escapeUnit_injective (by omega) (by omega) h
      exact ⟨Char.toNat_inj.mp same, rest⟩
    · obtain ⟨first, _⟩ := flatMap_escapeUnit_injective (by omega) (by omega) h
      omega
  · split at h
    · obtain ⟨first, _⟩ := flatMap_escapeUnit_injective (by omega) (by omega) h
      omega
    · obtain ⟨first, behind⟩ := flatMap_escapeUnit_injective (by omega) (by omega) h
      obtain ⟨second, rest⟩ := flatMap_escapeUnit_injective (by omega) (by omega) behind
      exact ⟨Char.toNat_inj.mp (by omega), rest⟩

end Units

section Escapes
variable {c d : Char} {x y : Text}

/-- The character that a mark behind a backslash stands for. -/
def unmarked (mark : Char) : Char :=
  match mark with
  | 'n' => '\n'
  | 'r' => '\r'
  | 't' => '\t'
  | 'b' => '\x08'
  | 'f' => '\x0c'
  | mark => mark

/-- The forms of an escape. -/
inductive IsEscape (c : Char) : Text → Prop where
  | short {mark : Char} (other : mark ≠ 'u') (same : unmarked mark = c) : IsEscape c ['\\', mark]
  | plain (other : c ≠ '\\' ∧ c ≠ '"') : IsEscape c [c]
  | units : IsEscape c ((units c).flatMap escapeUnit)

theorem isEscape_escapeChar (c : Char) : IsEscape c (escapeChar c) := by
  unfold escapeChar
  split
  · rename_i quoted
    rcases quoted with rfl | rfl
    · exact .short (by decide) rfl
    · exact .short (by decide) rfl
  rename_i unquoted
  rw [not_or] at unquoted
  split
  · subst_vars
    exact .short (by decide) rfl
  split
  · subst_vars
    exact .short (by decide) rfl
  split
  · subst_vars
    exact .short (by decide) rfl
  split
  · subst_vars
    exact .short (by decide) rfl
  split
  · subst_vars
    exact .short (by decide) rfl
  split
  · exact .plain unquoted.symm
  have written := IsEscape.units (c := c)
  unfold Json.units at written
  split
  · rename_i basic
    simpa [basic] using written
  · rename_i beyond
    simpa [beyond] using written

theorem exists_units_cons (c : Char) :
    ∃ r, (units c).flatMap escapeUnit = '\\' :: 'u' :: r := by
  have first (n : Nat) (ns : List Nat) :
      ∃ r, (n :: ns).flatMap escapeUnit = '\\' :: 'u' :: r := ⟨_, rfl⟩
  unfold units
  split
  · exact first _ _
  · exact first _ _

/-- A character and the end of its escape can be told from a longer text. -/
theorem IsEscape.append_injective {e f : Text} (hc : IsEscape c e) (hd : IsEscape d f)
    (h : e ++ x = f ++ y) : c = d ∧ x = y := by
  obtain ⟨r, unit⟩ := exists_units_cons c
  obtain ⟨r', unit'⟩ := exists_units_cons d
  cases hc with
  | short other same => cases hd with
    | short _ same' =>
      obtain ⟨rfl, rest⟩ := List.cons.inj (List.cons.inj h).2
      exact ⟨same.symm.trans same', rest⟩
    | plain other => exact absurd (List.cons.inj h).1.symm other.1
    | units =>
      rw [unit'] at h
      exact absurd (List.cons.inj (List.cons.inj h).2).1 other
  | plain other => cases hd with
    | short => exact absurd (List.cons.inj h).1 other.1
    | plain => exact List.cons.inj h
    | units =>
      rw [unit'] at h
      exact absurd (List.cons.inj h).1 other.1
  | units => cases hd with
    | short other =>
      rw [unit] at h
      exact absurd (List.cons.inj (List.cons.inj h).2).1.symm other
    | plain other =>
      rw [unit] at h
      exact absurd (List.cons.inj h).1.symm other.1
    | units => exact units_append_injective h

theorem IsEscape.exists_cons {e : Text} (h : IsEscape c e) : ∃ f r, e = f :: r ∧ f ≠ '"' := by
  cases h with
  | short => exact ⟨'\\', _, rfl, by decide⟩
  | plain other => exact ⟨c, [], rfl, other.2⟩
  | units =>
    obtain ⟨r, unit⟩ := exists_units_cons c
    exact ⟨'\\', _, unit, by decide⟩

theorem escaped_ne_quote (c : Char) (x y : Text) : escapeChar c ++ x ≠ '"' :: y := by
  obtain ⟨f, r, escape, other⟩ := (isEscape_escapeChar c).exists_cons
  rw [escape]
  exact fun same => other (List.cons.inj same).1

end Escapes

theorem quote_append_injective {t u x y : Text} (h : quote t ++ x = quote u ++ y) :
    t = u ∧ x = y := by
  simp only [quote, List.cons_append, List.append_assoc, List.nil_append] at h
  replace h := (List.cons.inj h).2
  induction t generalizing u with
  | nil => cases u with
    | nil => exact ⟨rfl, (List.cons.inj h).2⟩
    | cons d u =>
      rw [List.flatMap_cons, List.append_assoc] at h
      exact absurd h.symm (escaped_ne_quote d _ _)
  | cons c t ih =>
    rw [List.flatMap_cons, List.append_assoc] at h
    cases u with
    | nil => exact absurd h (escaped_ne_quote c _ _)
    | cons d u =>
      rw [List.flatMap_cons, List.append_assoc] at h
      obtain ⟨rfl, behind⟩ :=
        (isEscape_escapeChar c).append_injective (isEscape_escapeChar d) h
      obtain ⟨rfl, rest⟩ := ih behind
      exact ⟨rfl, rest⟩

end MemLogic.Json
