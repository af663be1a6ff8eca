import MemLogic.Numeral
import MemLogic.Proofs.Text.Cut
import Mathlib.Tactic.Common

/-! Digits of numerals: which characters they are, and that they tell numbers apart. -/

namespace MemLogic.Numeral
open Text

theorem isDigit_natural (n : Nat) : ∀ c ∈ natural n, c.isDigit :=
  fun _ hc => Nat.isDigit_of_mem_toDigits (by decide) (by decide) hc

theorem natural_ne_nil (n : Nat) : natural n ≠ [] :=
  Nat.toDigits_ne_nil

theorem natural_injective {n m : Nat} (h : natural n = natural m) : n = m := by
  have digits (k : Nat) : Nat.ofDigitChars 10 (natural k) 0 = k := Nat.ofDigitChars_ten_toDigits
  rw [← digits n, h, digits m]

/-- A numeral ends where no further digit follows. -/
theorem natural_append_injective {n m : Nat} {x y : Text} (hx : StopsAt Char.isDigit x)
    (hy : StopsAt Char.isDigit y) (h : natural n ++ x = natural m ++ y) : n = m ∧ x = y := by
  have digits : natural n = natural m := by
    rw [← takeWhile_append_of_stopsAt (isDigit_natural n) hx, h,
      takeWhile_append_of_stopsAt (isDigit_natural m) hy]
  refine ⟨natural_injective digits, ?_⟩
  rw [digits] at h
  exact List.append_cancel_left h

theorem exists_integer_cons (z : Int) : ∃ d r, integer z = d :: r ∧ (d = '-' ∨ d.isDigit) := by
  cases z with
  | ofNat n =>
    obtain ⟨d, r, same⟩ := List.exists_cons_of_ne_nil (natural_ne_nil n)
    exact ⟨d, r, same, .inr (isDigit_natural n d (by rw [same]; exact List.mem_cons_self))⟩
  | negSucc n => exact ⟨'-', natural (n + 1), rfl, .inl rfl⟩

theorem integer_append_injective {z w : Int} {x y : Text} (hx : StopsAt Char.isDigit x)
    (hy : StopsAt Char.isDigit y) (h : integer z ++ x = integer w ++ y) : z = w ∧ x = y := by
  have unsigned (n : Nat) (u v : Text) : natural n ++ u ≠ '-' :: v := by
    obtain ⟨d, r, same⟩ := List.exists_cons_of_ne_nil (natural_ne_nil n)
    have digit : d.isDigit := isDigit_natural n d (by rw [same]; exact List.mem_cons_self)
    rw [same]
    rintro signed
    obtain rfl : d = '-' := (List.cons.inj signed).1
    exact absurd digit (by decide)
  cases z with
  | ofNat n => cases w with
    | ofNat m =>
      obtain ⟨rfl, rest⟩ := natural_append_injective hx hy h
      exact ⟨rfl, rest⟩
    | negSucc m => exact absurd h (unsigned n x _)
  | negSucc n => cases w with
    | ofNat m => exact absurd h.symm (unsigned m y _)
    | negSucc m =>
      obtain ⟨same, rest⟩ := natural_append_injective hx hy (List.cons.inj h).2
      exact ⟨by rw [Nat.succ.inj same], rest⟩

/-- A fact of the sixteen digits holds all along a hexadecimal numeral. -/
theorem forall_mem_hexadecimal {P : Char → Prop} (digit : ∀ d < 16, P d.digitChar) (n : Nat) :
    ∀ c ∈ hexadecimal n, P c := by
  unfold hexadecimal
  induction n using Nat.strongRecOn with
  | ind n ih =>
    rw [Nat.toDigits_eq_if (by decide)]
    split
    · rename_i small
      simpa using digit n small
    · rename_i large
      intro c hc
      rcases List.mem_append.mp hc with hc | hc
      · exact ih (n / 16) (Nat.div_lt_self (by omega) (by decide)) c hc
      · rw [List.mem_singleton.mp hc]
        exact digit _ (Nat.mod_lt _ (by decide))

theorem isAlphanum_hexadecimal (n : Nat) : ∀ c ∈ hexadecimal n, c.isAlphanum :=
  forall_mem_hexadecimal (by decide) n

end MemLogic.Numeral
