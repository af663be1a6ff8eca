import MemLogic.Text
import Mathlib.Data.List.Basic

/-! Letter case in ASCII: what lowering the letters of a text keeps. -/

namespace MemLogic.Text

/-- A fact of all characters, from the 128 of ASCII and a reason for those beyond. -/
theorem forall_of_ascii (P : Char → Prop) (low : ∀ n < 128, P (Char.ofNat n))
    (high : ∀ c : Char, 128 ≤ c.toNat → P c) (c : Char) : P c := by
  by_cases h : c.toNat < 128
  · simpa using low c.toNat h
  · exact high c (by omega)

theorem toLower_of_le {c : Char} (h : 128 ≤ c.toNat) : c.toLower = c := by
  have value : 128 ≤ c.val.toNat := h
  unfold Char.toLower
  rw [dif_neg]
  rintro ⟨_, upper⟩
  have bound := UInt32.le_iff_toNat_le.mp upper
  simp at bound
  omega

theorem toUpper_of_le {c : Char} (h : 128 ≤ c.toNat) : c.toUpper = c := by
  have value : 128 ≤ c.val.toNat := h
  unfold Char.toUpper
  rw [dif_neg]
  rintro ⟨_, upper⟩
  have bound := UInt32.le_iff_toNat_le.mp upper
  simp at bound
  omega

@[simp] theorem toLower_toLower (c : Char) : c.toLower.toLower = c.toLower := by
  refine forall_of_ascii (fun c => c.toLower.toLower = c.toLower) (by decide +kernel) ?_ c
  intro c h
  rw [toLower_of_le h, toLower_of_le h]

@[simp] theorem isAlphanum_toLower (c : Char) : c.toLower.isAlphanum = c.isAlphanum := by
  refine forall_of_ascii (fun c => c.toLower.isAlphanum = c.isAlphanum) (by decide +kernel) ?_ c
  intro c h
  rw [toLower_of_le h]

/-- Only letters change, and they become letters. -/
theorem toLower_eq_iff {d : Char} (hd : d.isAlpha = false) (c : Char) :
    c.toLower = d ↔ c = d := by
  have main : c.toLower ≠ c → c.toLower.isAlpha := by
    refine forall_of_ascii (fun c => c.toLower ≠ c → c.toLower.isAlpha) (by decide +kernel) ?_ c
    intro c h hc
    exact absurd (toLower_of_le h) hc
  have own : d.toLower ≠ d → d.isAlpha := by
    refine forall_of_ascii (fun d => d.toLower ≠ d → d.isAlpha) (by decide +kernel) ?_ d
    intro d h hc
    exact absurd (toLower_of_le h) hc
  constructor
  · rintro rfl
    by_contra hne
    rw [main (Ne.symm hne)] at hd
    exact Bool.noConfusion hd
  · rintro rfl
    by_contra hne
    rw [own hne] at hd
    exact Bool.noConfusion hd

theorem lt_of_isAlphanum {c : Char} (h : c.isAlphanum) : c.toNat < 128 := by
  have value (d : Char) : d.toNat = d.val.toNat := rfl
  have ranges : (decide ('A'.val ≤ c.val ∧ c.val ≤ 'Z'.val) ||
      (decide ('a'.val ≤ c.val) && decide (c.val ≤ 'z'.val)) ||
        (decide ('0'.val ≤ c.val) && decide (c.val ≤ '9'.val))) = true := h
  simp only [Bool.or_eq_true, Bool.and_eq_true, decide_eq_true_eq, UInt32.le_iff_toNat_le,
    ← value] at ranges
  have z : 'z'.toNat = 122 := rfl
  have Z : 'Z'.toNat = 90 := rfl
  have nine : '9'.toNat = 57 := rfl
  omega

theorem isAlpha_of_isDigit {d : Char} (h : d.isDigit) : d.isAlpha = false := by
  have low : ∀ n < 128, (Char.ofNat n).isDigit → (Char.ofNat n).isAlpha = false := by
    decide +kernel
  have known := low d.toNat (lt_of_isAlphanum (by simp [Char.isAlphanum, h]))
  rw [Char.ofNat_toNat] at known
  exact known h

theorem toLower_of_letterless {c : Char} (h : c.isAlpha = false) : c.toLower = c :=
  (toLower_eq_iff h c).mpr rfl

@[simp] theorem lower_nil : lower [] = [] := rfl

@[simp] theorem lower_cons (c : Char) (t : Text) : lower (c :: t) = c.toLower :: lower t := rfl

@[simp] theorem lower_append (x y : Text) : lower (x ++ y) = lower x ++ lower y :=
  List.map_append

@[simp] theorem length_lower (t : Text) : (lower t).length = t.length :=
  List.length_map _

@[simp] theorem lower_eq_nil {t : Text} : lower t = [] ↔ t = [] :=
  List.map_eq_nil_iff

@[simp] theorem lower_lower (t : Text) : lower (lower t) = lower t := by
  simp [lower]

theorem lower_eq_self {t : Text} (h : ∀ c ∈ lower t, c.isAlpha = false) : lower t = t := by
  induction t with
  | nil => rfl
  | cons c t ih =>
    rw [lower_cons, List.forall_mem_cons] at h
    have same : c = c.toLower := (toLower_eq_iff h.1 c).mp rfl
    rw [lower_cons, ← same, ih h.2]

theorem lower_of_letterless {t : Text} (h : ∀ c ∈ t, c.isAlpha = false) : lower t = t := by
  have same : ∀ c ∈ t, c.toLower = c := fun c hc => toLower_of_letterless (h c hc)
  rw [lower, List.map_congr_left same, List.map_id']

theorem lower_eq_iff {s : Text} (h : ∀ c ∈ s, c.isAlpha = false) (t : Text) :
    lower t = s ↔ t = s := by
  constructor
  · rintro rfl
    exact (lower_eq_self h).symm
  · rintro rfl
    exact lower_of_letterless h

theorem forall_isAlphanum_lower (t : Text) :
    (∀ c ∈ lower t, c.isAlphanum) ↔ ∀ c ∈ t, c.isAlphanum := by
  simp [lower]

/-! No letter becomes a character that is none, so that such a character stands where it did. -/

section Letterless
variable {d : Char}

theorem mem_lower (hd : d.isAlpha = false) (t : Text) : d ∈ lower t ↔ d ∈ t := by
  simp [lower, toLower_eq_iff hd]

theorem map_toLower_eq_some (hd : d.isAlpha = false) (first : Option Char) :
    first.map Char.toLower = some d ↔ first = some d := by
  cases first with
  | none => simp
  | some c => simp [toLower_eq_iff hd]

theorem head?_lower_eq_some (hd : d.isAlpha = false) (t : Text) :
    (lower t).head? = some d ↔ t.head? = some d := by
  rw [lower, List.head?_map, map_toLower_eq_some hd]

theorem getLast?_lower_eq_some (hd : d.isAlpha = false) (t : Text) :
    (lower t).getLast? = some d ↔ t.getLast? = some d := by
  rw [lower, List.getLast?_map, map_toLower_eq_some hd]

end Letterless

/-- A token in lower case is what the text has there in some letter case. -/
theorem lower_take {k t : Text} (fits : k <+: lower t) : lower (t.take k.length) = k := by
  rw [lower, List.map_take]
  exact (List.prefix_iff_eq_take.mp fits).symm

theorem takeWhile_lower {p : Char → Bool} (hp : ∀ c, p c.toLower = p c) (t : Text) :
    (lower t).takeWhile p = lower (t.takeWhile p) := by
  induction t with
  | nil => rfl
  | cons c t ih =>
    simp only [lower_cons, List.takeWhile_cons, hp]
    split
    · rw [ih, lower_cons]
    · rfl

theorem dropWhile_lower {p : Char → Bool} (hp : ∀ c, p c.toLower = p c) (t : Text) :
    (lower t).dropWhile p = lower (t.dropWhile p) := by
  induction t with
  | nil => rfl
  | cons c t ih =>
    simp only [lower_cons, List.dropWhile_cons, hp]
    split
    · exact ih
    · rfl

theorem splitToken_lower (tokens : List Text) (t : Text) :
    splitToken tokens (lower t) =
      (lower (splitToken tokens t).1, lower (splitToken tokens t).2) := by
  unfold splitToken
  rw [lower_lower]
  split
  · simp only [lower, List.map_take, List.map_drop]
  · rfl

end MemLogic.Text
