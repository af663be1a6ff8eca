import MemLogic.Proofs.Operand.Literal
import MemLogic.Proofs.Requirement.LongestReading

/-! Flags and hit counts as wrappers: each can be put around a segment that has none, and changes no
more of the requirement than what it says itself. -/

namespace MemLogic.Requirement
open Text Spelling

/-- A segment with a shape, though a number in it may be too long to convert. -/
def Accepted (t : Text) : Prop :=
  ∀ segment, read t ≠ .error (.noShape segment)

def EndsInHitCount (t : Text) : Prop :=
  ∃ h, Reading.IsHitCount h ∧ h <:+ t

def HasFlag (t : Text) : Prop :=
  ∃ f, Reading.IsFlag f ∧ f <+: t

variable {t h digits : Text} {c : Char}

theorem accepted_iff : Accepted t ↔ ∃ s, Spelling.read? t = some s := by
  constructor
  · intro accepted
    cases found : Spelling.read? t with
    | some s => exact ⟨s, rfl⟩
    | none => exact absurd (by rw [read, found]) (accepted t)
  · rintro ⟨s, found⟩ segment fails
    obtain ⟨r, longest, _⟩ := Reading.exists_isLongest found
    obtain ⟨n, _, other⟩ := longest.valid.tooManyDigits (longest.read_eq_error.mp fails)
    exact absurd other (by simp)

theorem hasFlag_iff :
    HasFlag t ↔ ∃ c r, t = c :: ':' :: r ∧ c.toUpper ∈ "PRABCDNOMQITZGK".toList := by
  constructor
  · rintro ⟨_, ⟨c, letter, rfl⟩, r, rfl⟩
    exact ⟨c, r, rfl, letter⟩
  · rintro ⟨c, r, rfl, letter⟩
    exact ⟨[c, ':'], ⟨c, letter, rfl⟩, r, rfl⟩

namespace Spelling

theorem splitFlag_suffix (t : Text) : (splitFlag t).2 <:+ t := by
  rcases splitFlag_cases t with taken | ⟨c, r, rfl, _, taken⟩
  · simp [taken]
  · rw [taken]
    exact ⟨[c, ':'], rfl⟩

theorem splitFlag_free (free : ¬ HasFlag t) : splitFlag t = ([], t) := by
  rcases splitFlag_cases t with plain | ⟨c, r, text, letter, _⟩
  · exact plain
  · exact absurd (hasFlag_iff.mpr ⟨c, r, text, letter⟩) free

/-- No flag comes about behind the colon of one. -/
theorem splitFlag_append (colonless : ':' ∉ h) (t : Text) :
    splitFlag (t ++ h) = ((splitFlag t).1, (splitFlag t).2 ++ h) := by
  rcases splitFlag_cases t with plain | ⟨c, r, rfl, letter, taken⟩
  · rcases splitFlag_cases (t ++ h) with plain' | ⟨c, r, text, letter, _⟩
    · rw [plain, plain']
    · have inside : ∀ x : Text, h ≠ x ++ ':' :: r := by
        rintro x rfl
        exact colonless (by simp)
      match t, text with
      | [], text => exact absurd text (inside [c])
      | [d], text => exact absurd (List.cons.inj text).2 (inside [])
      | d :: e :: t, text =>
        obtain ⟨rfl, rest⟩ := List.cons.inj text
        obtain ⟨rfl, _⟩ := List.cons.inj rest
        rw [splitFlag_flag letter] at plain
        exact absurd (congrArg Prod.fst plain) (List.cons_ne_nil _ _)
  · rw [taken]
    exact splitFlag_flag letter (r ++ h)

/-- A hit count behind a segment that has none becomes that of the segment. -/
theorem read?_append_hitCount (hit : HitCount digits h) (free : ¬ EndsInHitCount t) :
    Spelling.read? (t ++ h) =
      (Spelling.read? t).map fun s => { s with hits := some digits } := by
  have alone : splitHits (splitFlag t).2 = ((splitFlag t).2, none) := by
    rcases splitHits_cases (splitFlag t).2 with ⟨plain, _⟩ | ⟨x, y, other, text, ends, _⟩
    · exact plain
    · have suffix : y <:+ t := List.IsSuffix.trans ⟨x, text.symm⟩ (splitFlag_suffix t)
      exact absurd ⟨y, (isHitCount_iff y).mpr ⟨other, ends⟩, suffix⟩ free
  simp only [Spelling.read?, splitFlag_append hit.colonless, splitHits_append hit, alone,
    Option.map_map]
  rfl

/-- Of two hit counts in a row neither belongs to the sides, and only one is taken off. -/
theorem read?_append_two (hit : HitCount digits h) (ends : EndsInHitCount t) :
    Spelling.read? (t ++ h) = none := by
  obtain ⟨y, count, x, rfl⟩ := ends
  obtain ⟨other, inner⟩ := (isHitCount_iff y).mp count
  simp only [Spelling.read?, splitFlag_append hit.colonless, splitHits_append hit,
    splitFlag_append inner.colonless, sides?_hitCount inner, Option.map_none]

theorem read?_append_eq_some (hit : HitCount digits h) :
    (∃ s, Spelling.read? (t ++ h) = some s) ↔
      (∃ s, Spelling.read? t = some s) ∧ ¬ EndsInHitCount t := by
  by_cases ends : EndsInHitCount t
  · simp [read?_append_two hit ends, ends]
  · simp [read?_append_hitCount hit ends, ends]

/-- A flag before a segment that has none becomes that of the segment. -/
theorem read?_cons_flag (letter : c.toUpper ∈ "PRABCDNOMQITZGK".toList) (free : ¬ HasFlag t) :
    Spelling.read? (c :: ':' :: t) = (Spelling.read? t).map fun s => { s with flag := [c] } := by
  simp only [Spelling.read?, splitFlag_flag letter, splitFlag_free free, Option.map_map]
  rfl

theorem read?_cons_two (letter : c.toUpper ∈ "PRABCDNOMQITZGK".toList) (flagged : HasFlag t) :
    Spelling.read? (c :: ':' :: t) = none := by
  obtain ⟨d, r, rfl, _⟩ := hasFlag_iff.mp flagged
  have colon : ':' ∈ (splitHits (d :: ':' :: r)).1 :=
    mem_splitHits (fun _ _ hit => hit.colonless) (by simp)
  simp only [Spelling.read?, splitFlag_flag letter, sides?_colon colon, Option.map_none]

theorem read?_cons_eq_some (letter : c.toUpper ∈ "PRABCDNOMQITZGK".toList) :
    (∃ s, Spelling.read? (c :: ':' :: t) = some s) ↔
      (∃ s, Spelling.read? t = some s) ∧ ¬ HasFlag t := by
  by_cases flagged : HasFlag t
  · simp [read?_cons_two letter flagged, flagged]
  · simp [read?_cons_flag letter flagged, flagged]

/-- The parts of a spelling are resolved each by itself; only the count looks at the flag. -/
theorem requirement_eq_ok {s : Spelling} {q : Requirement} : s.requirement = .ok q ↔
    Flag.ofLetter s.flag = .ok q.flag ∧ s.left.operand = .ok q.left ∧
      Comparator.ofSymbol ((s.comparison.map Prod.fst).getD []) = .ok q.comparator ∧
        (s.comparison.map fun c => c.2.operand).getD (.ok .blank) = .ok q.right ∧
          hitCount q.flag s.hits = .ok q.hits := by
  simp only [requirement, bind_eq_ok, pure_eq_ok]
  constructor
  · rintro ⟨f, flag, l, left, c, comparator, o, right, n, hits, rfl⟩
    exact ⟨flag, left, comparator, right, hits⟩
  · rintro ⟨flag, left, comparator, right, hits⟩
    exact ⟨_, flag, _, left, _, comparator, _, right, _, hits, rfl⟩

theorem hitCount_digits {f : Flag} (counted : ¬ f.accumulates)
    (short : digits.length ≤ Numeral.maxDigits) :
    hitCount f (some digits) = .ok (some (Numeral.ofDigits (digits.map Text.digit) : Int)) := by
  have bound : ¬ Numeral.maxDigits < (digits.map Text.digit).length := by
    rw [List.length_map]
    omega
  have read : Numeral.read (digits.map fun d => d.toNat - '0'.toNat) =
      .ok (Numeral.ofDigits (digits.map Text.digit)) := if_neg bound
  unfold hitCount
  simp only [if_neg counted, read]
  rfl

theorem hitCount_accumulates {f : Flag} (accumulates : f.accumulates) (d : Option Text) :
    hitCount f d = .ok none := by
  unfold hitCount
  rw [if_pos accumulates]

/-- Flags differ only in whether they count hits. -/
theorem hitCount_counted {f g : Flag} (hf : ¬ f.accumulates) (hg : ¬ g.accumulates)
    (d : Option Text) : hitCount f d = hitCount g d := by
  unfold hitCount
  rw [if_neg hf, if_neg hg]

end Spelling

theorem read_eq_ok {q : Requirement} :
    read t = .ok q ↔ ∃ s, Spelling.read? t = some s ∧ s.requirement = .ok q := by
  unfold read
  split
  · rename_i found
    simp [found]
  · rename_i found
    simp [found]

/-- With another hit count, where hits are counted. -/
def withHits (q : Requirement) (n : Int) : Requirement :=
  if q.flag.accumulates then q else { q with hits := some n }

/-- With another flag, and without hits where that flag counts none. -/
def withFlag (q : Requirement) (f : Flag) : Requirement :=
  { q with flag := f, hits := if f.accumulates then none else q.hits }

variable {q : Requirement}

theorem read_append_hitCount (hit : HitCount digits h)
    (short : digits.length ≤ Numeral.maxDigits) (free : ¬ EndsInHitCount t) (ok : read t = .ok q) :
    read (t ++ h) = .ok (q.withHits (Numeral.ofDigits (digits.map Text.digit))) := by
  obtain ⟨s, found, parts⟩ := read_eq_ok.mp ok
  obtain ⟨flag, left, comparator, right, hits⟩ := requirement_eq_ok.mp parts
  refine read_eq_ok.mpr ⟨{ s with hits := some digits }, ?_, requirement_eq_ok.mpr ?_⟩
  · rw [read?_append_hitCount hit free, found, Option.map_some]
  · unfold withHits
    split
    · rename_i accumulates
      rw [hitCount_accumulates accumulates] at hits
      exact ⟨flag, left, comparator, right, (hitCount_accumulates accumulates _).trans hits⟩
    · rename_i counted
      exact ⟨flag, left, comparator, right, hitCount_digits counted short⟩

theorem read_cons_flag {f : Flag} (letter : c.toUpper ∈ "PRABCDNOMQITZGK".toList)
    (same : f.letter = [c.toUpper]) (free : ¬ HasFlag t) (ok : read t = .ok q) :
    read (c :: ':' :: t) = .ok (q.withFlag f) := by
  obtain ⟨s, found, parts⟩ := read_eq_ok.mp ok
  obtain ⟨flag, left, comparator, right, hits⟩ := requirement_eq_ok.mp parts
  have plain : q.flag = .plain := by
    have unflagged : s.flag = (splitFlag t).1 := by
      obtain ⟨sides, _, rfl⟩ := Option.map_eq_some_iff.mp found
      rfl
    rw [unflagged, splitFlag_free free] at flag
    exact Flag.ofLetter_nil.mp flag
  refine read_eq_ok.mpr ⟨{ s with flag := [c] }, ?_, requirement_eq_ok.mpr
    ⟨(Flag.ofLetter_eq_ok letter).mpr same, left, comparator, right, ?_⟩⟩
  · rw [read?_cons_flag letter free, found, Option.map_some]
  · unfold withFlag
    split
    · rename_i accumulates
      exact hitCount_accumulates accumulates _
    · rename_i counted
      rw [plain] at hits
      rwa [hitCount_counted counted (g := .plain) (by decide)]

/-- A hit count can be put behind a segment that ends in none, and a flag before one that has none,
and nowhere else. The requirement is the same but for the hits, or the flag and what it makes of
them. -/
theorem read_wrapped (s : Text) :
    (∀ digits h, HitCount digits h → digits.length ≤ Numeral.maxDigits →
      (Accepted (s ++ h) ↔ Accepted s ∧ ¬ EndsInHitCount s) ∧
      (Accepted (s ++ h) → ∀ q, read s = .ok q →
        read (s ++ h) = .ok (q.withHits (Numeral.ofDigits (digits.map Text.digit))))) ∧
    ∀ c : Char, c.toUpper ∈ "PRABCDNOMQITZGK".toList →
      (Accepted (c :: ':' :: s) ↔ Accepted s ∧ ¬ HasFlag s) ∧
      (Accepted (c :: ':' :: s) → ∃ f : Flag, f.letter = [c.toUpper] ∧
        ∀ q, read s = .ok q → read (c :: ':' :: s) = .ok (q.withFlag f)) := by
  constructor
  · intro digits h hit short
    have wraps : Accepted (s ++ h) ↔ Accepted s ∧ ¬ EndsInHitCount s := by
      rw [accepted_iff, accepted_iff]
      exact read?_append_eq_some hit
    exact ⟨wraps, fun accepted q => read_append_hitCount hit short (wraps.mp accepted).2⟩
  · intro c letter
    have wraps : Accepted (c :: ':' :: s) ↔ Accepted s ∧ ¬ HasFlag s := by
      rw [accepted_iff, accepted_iff]
      exact read?_cons_eq_some letter
    refine ⟨wraps, fun accepted => ?_⟩
    obtain ⟨f, known⟩ := Flag.exists_ofLetter letter
    have same := (Flag.ofLetter_eq_ok letter).mp known
    exact ⟨f, same, fun q => read_cons_flag letter same (wraps.mp accepted).2⟩

/-- The dot of a number stays with the number when a hit count follows it. -/
theorem read_wrapped_behind_dot : HitCount "3".toList ".3.".toList ∧
    ∃ q, read "5.".toList = .ok q ∧ read "5..3.".toList = .ok (q.withHits 3) ∧
      ∃ f : Flag, f.letter = ['A'] ∧ read "a:5.".toList = .ok (q.withFlag f) := by
  have hit : HitCount "3".toList ".3.".toList := hitDigits?_eq_some.mp (by decide)
  have ok : read "5.".toList = .ok ⟨.plain, ⟨.value, none, "5.".toList⟩, .eq, .blank, some 0⟩ := by
    decide +kernel
  have counted : Accepted ("5.".toList ++ ".3.".toList) :=
    accepted_iff.mpr (Option.isSome_iff_exists.mp (by decide +kernel))
  have flagged : Accepted ('a' :: ':' :: "5.".toList) :=
    accepted_iff.mpr (Option.isSome_iff_exists.mp (by decide +kernel))
  obtain ⟨hits, flags⟩ := read_wrapped "5.".toList
  obtain ⟨f, letter, read⟩ := (flags 'a' (by decide)).2 flagged
  exact ⟨hit, _, ok, (hits _ _ hit (by decide)).2 counted _ ok, f, letter, read _ ok⟩

end MemLogic.Requirement
