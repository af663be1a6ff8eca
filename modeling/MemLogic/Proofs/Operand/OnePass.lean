import MemLogic.Proofs.Operand.Written
import Mathlib.Data.List.MinMax

/-! Whole texts read as operands in one pass: what stands in front of the payload is taken as far as
it goes, and never given back. -/

namespace MemLogic.Operand
open Text
namespace Spelling

variable {t p q k : Text}

theorem isPayload_iff : IsPayload p ↔ (splitPayload p).2 = [] := by
  constructor
  · intro payload
    rw [splitPayload_eq payload]
  · intro whole
    obtain ⟨payload, text⟩ := splitPayload_parts p
    rw [whole, List.append_nil] at text
    rwa [text]

instance (p : Text) : Decidable (IsPayload p) :=
  decidable_of_iff _ isPayload_iff.symm

theorem IsPayload.tail {c : Char} (h : IsPayload (c :: p)) : IsPayload p := by
  obtain ⟨sign, whole, fraction, text, signed, word, dotted⟩ := h.parts
  have unsigned : ∀ s, sign = [s] → IsPayload p := by
    rintro s rfl
    exact ⟨[], whole, fraction, (List.cons.inj text).2, .inl rfl, word, dotted⟩
  rcases signed with rfl | signed | signed
  · cases whole with
    | cons d whole =>
      have rest := (List.forall_mem_cons.mp word).2
      exact ⟨[], whole, fraction, (List.cons.inj text).2, .inl rfl, rest, dotted⟩
    | nil =>
      rcases dotted with rfl | ⟨w, rfl, last⟩
      · exact absurd text (List.cons_ne_nil _ _)
      · exact ⟨[], w, [], by simpa using (List.cons.inj text).2, .inl rfl, last, .inl rfl⟩
  · exact unsigned _ signed
  · exact unsigned _ signed

theorem IsPayload.of_suffix (h : IsPayload p) (suffix : q <:+ p) : IsPayload q := by
  obtain ⟨x, rfl⟩ := suffix
  induction x with
  | nil => exact h
  | cons c x ih => exact ih h.tail

/-- No size token that a text starts with is longer than the one that is taken. -/
theorem splitSize_suffix (token : lower k ∈ sizeTokens) (p : Text) :
    (splitSize (k ++ p)).2 <:+ p := by
  have alone : splitSize k = (k, []) := by
    simpa using splitSize_token (p := []) token fun _ => stopsAt_nil _
  have bound := isCut_splitSize.longest k p
  rw [alone, List.length_nil, Nat.zero_add] at bound
  exact List.suffix_of_suffix_length_le (isCut_splitSize.suffix _) (List.suffix_append k p) bound

theorem splitSize_longest (token : k ∈ sizeTokens) (fits : k <+: lower t) :
    k.length ≤ (splitSize t).1.length := by
  have rest := (splitSize_suffix (by rwa [lower_take fits]) (t.drop k.length)).length_le
  rw [List.take_append_drop, List.length_drop] at rest
  have text := congrArg List.length (splitToken_append sizeTokens t)
  have bound := fits.length_le
  rw [← splitSize, List.length_append] at text
  rw [length_lower] at bound
  omega

/-- The longest of the size tokens that a text starts with, with what follows it. -/
def longestSize (t : Text) : Text × Text :=
  match (sizeTokens.filter (·.isPrefixOf (lower t))).argmax List.length with
  | some token => t.splitAt token.length
  | none => ([], t)

theorem mem_fitting : k ∈ sizeTokens.filter (·.isPrefixOf (lower t)) ↔
    k ∈ sizeTokens ∧ k <+: lower t := by
  rw [List.mem_filter, List.isPrefixOf_iff_prefix]

/-- The order of the tokens makes the first that fits the longest. -/
theorem splitSize_eq_longestSize (t : Text) : splitSize t = longestSize t := by
  rcases splitToken_cases sizeTokens t with ⟨taken, miss⟩ | ⟨x, y, text, taken, found⟩
  · have none : sizeTokens.filter (·.isPrefixOf (lower t)) = [] :=
      List.eq_nil_iff_forall_not_mem.mpr fun k fits =>
        miss k (mem_fitting.mp fits).1 (mem_fitting.mp fits).2
    rw [longestSize, none]
    exact taken
  · have fits : lower x ∈ sizeTokens.filter (·.isPrefixOf (lower t)) :=
      mem_fitting.mpr ⟨found, by rw [text, lower_append]; exact List.prefix_append _ _⟩
    obtain ⟨token, longest⟩ := Option.ne_none_iff_exists'.mp
      (List.argmax_eq_none (f := List.length).not.mpr (List.ne_nil_of_mem fits))
    obtain ⟨known, front⟩ := mem_fitting.mp (List.argmax_mem longest)
    have atLeast := splitSize_longest known front
    have atMost := List.le_of_mem_argmax fits longest
    rw [show splitSize t = (x, y) from taken] at atLeast ⊢
    have length : token.length = x.length := by
      rw [length_lower] at atMost
      exact Nat.le_antisymm atLeast atMost
    rw [longestSize, longest]
    simp [length, text]

/-- The name in a text that is a name in braces and nothing else. -/
def bracedName? (t : Text) : Option Text :=
  match t with
  | '\x7b' :: inner =>
    let name := inner.dropLast
    if inner.getLast? = some '\x7d' ∧ name ≠ [] ∧ ∀ c ∈ name, c.isAlphanum then some name else none
  | _ => none

theorem bracedName?_eq_some {name : Text} : bracedName? t = some name ↔
    t = '\x7b' :: name ++ ['\x7d'] ∧ name ≠ [] ∧ ∀ c ∈ name, c.isAlphanum := by
  unfold bracedName?
  split
  · rename_i inner
    simp only [Option.ite_none_right_eq_some, Option.some.injEq]
    constructor
    · rintro ⟨⟨closed, rest⟩, rfl⟩
      refine ⟨?_, rest⟩
      rw [List.cons_append, List.dropLast_append_getLast? _ closed]
    · rintro ⟨text, nonempty, word⟩
      obtain rfl := (List.cons.inj text).2
      simpa using ⟨nonempty, word⟩
  · rename_i unbraced
    simp only [reduceCtorEq, false_iff]
    rintro ⟨rfl, _⟩
    exact unbraced _ rfl

/-- Braces stand in no mark, size or payload. -/
theorem braceless_of_front (payload : IsPayload (splitFront t).2) : '\x7b' ∉ t := by
  obtain ⟨x, mark, size, text⟩ := splitFront_parts t
  intro member
  rw [text] at member
  rcases List.mem_append.mp member with member | member
  · rcases List.mem_append.mp member with member | member
    · exact absurd (mark.chars _ member) (by decide)
    · exact absurd (size.chars _ member) (by decide)
  · exact absurd (payload.chars _ member) (by decide)

theorem IsMark.length_le {m : Option Modifier} {x : Text} (h : IsMark m x) : x.length ≤ 1 := by
  cases m with
  | none => simp [show x = [] from h]
  | some m =>
    obtain ⟨c, _, rfl⟩ := h
    exact Nat.le_refl 1

/-- A payload goes on in the word, or with a dot; a sign stands only at its start. -/
theorem IsPayload.continues {x r : Text} {d : Char} (h : IsPayload (x ++ d :: r))
    (inside : x ≠ []) : d.isAlphanum ∨ d = '.' := by
  by_contra other
  push Not at other
  have signed : d = '+' ∨ d = '-' := by
    rcases h.chars d (by simp) with word | plus | minus | dot
    · exact absurd word other.1
    · exact .inl plus
    · exact .inr minus
    · exact absurd dot other.2
  have outside : IsOutside d := by
    rcases signed with rfl | rfl <;> decide
  exact inside (h.outside outside rfl).1

/-- What follows a constant, but neither in the word nor with a dot, is in no payload. -/
theorem not_payload_behind_constant {w r : Text} (constant : Payload.isConstant w)
    (word : StopsAt Char.isAlphanum r) (dot : StopsAt (· == '.') r) (nonempty : r ≠ []) :
    ¬ IsPayload (splitFront (w ++ r)).2 := by
  intro payload
  obtain ⟨d, r, rfl⟩ := List.exists_cons_of_ne_nil nonempty
  have letterless : d.isAlphanum = false := by simpa using word
  have dotless : d ≠ '.' := by simpa using dot
  obtain ⟨unsized, e, first, letter⟩ := splitFront_constant constant (d :: r)
  have apart : e ≠ d := by
    rintro rfl
    simp [Char.isAlphanum, letter] at letterless
  obtain ⟨u, front⟩ : ∃ u, (splitFront (w ++ d :: r)).2 = e :: u := by
    cases rest : (splitFront (w ++ d :: r)).2 with
    | nil => simp [rest] at first
    | cons e' u => exact ⟨u, by simpa [rest] using first⟩
  obtain ⟨x, mark, _, text⟩ := splitFront_parts (w ++ d :: r)
  rw [unsized, List.append_nil, front] at text
  rw [front] at payload
  rcases List.append_eq_append_iff.mp text with ⟨a, long, rest⟩ | ⟨a, rfl, rest⟩
  · -- the mark would be longer than the constant
    have empty : w = [] := by
      cases a with
      | nil => exact absurd (List.cons.inj rest).1.symm apart
      | cons c a =>
        have bound := mark.length_le
        rw [long, List.length_append, List.length_cons] at bound
        exact List.eq_nil_of_length_eq_zero (by omega)
    exact absurd (empty ▸ constant) (by decide)
  · cases a with
    | nil => exact absurd (List.cons.inj rest).1 apart
    | cons c a =>
      rw [rest] at payload
      rcases payload.continues (List.cons_ne_nil _ _) with letter | same
      · exact absurd letter (by simp [letterless])
      · exact dotless same

/-- A text that is neither in braces nor a constant is an operand where all that follows its mark
and its size is payload. -/
theorem read?_eq_front (unbraced : bracedName? t = none) (other : ¬ Payload.isConstant t) :
    read? t = if IsPayload (splitFront t).2
      then some (.plain (splitFront t).1.1 (splitFront t).1.2 (splitFront t).2) else none := by
  unfold read?
  cases hb : splitBraced? t with
  | some pieces =>
    obtain ⟨name, rest⟩ := pieces
    obtain ⟨text, nonempty, word⟩ := splitBraced?_eq_some.mp hb
    have more : rest ≠ [] := by
      rintro rfl
      have braced := bracedName?_eq_some.mpr ⟨text, nonempty, word⟩
      exact absurd (braced.symm.trans unbraced) (Option.some_ne_none _)
    have refused : ¬ IsPayload (splitFront t).2 := fun payload =>
      braceless_of_front payload (by simp [text])
    rw [if_neg refused, text, scan_braced rest nonempty word, if_neg more]
  | none =>
    cases hc : splitConstant? t with
    | some pieces =>
      obtain ⟨w, r⟩ := pieces
      obtain ⟨rfl, constant, word, dot⟩ := splitConstant?_eq_some.mp hc
      have more : r ≠ [] := by
        rintro rfl
        rw [List.append_nil] at other
        exact other constant
      rw [if_neg (not_payload_behind_constant constant word dot more),
        scan_constant constant word dot, if_neg more]
    | none =>
      rw [scan_plain hb hc, splitPlain_eq]
      by_cases payload : IsPayload (splitFront t).2
      · rw [if_pos payload, splitPayload_eq payload, if_pos rfl]
      · rw [if_neg payload, if_neg fun whole => payload (isPayload_iff.mpr whole)]

theorem read?_bracedName {name : Text} (h : bracedName? t = some name) :
    read? t = some (ofName name) := by
  obtain ⟨rfl, nonempty, word⟩ := bracedName?_eq_some.mp h
  exact read?_braced nonempty word

end Spelling
open Spelling

/-- Reads a whole text as one operand and takes nothing back: a name in braces, a constant, or a
mark, the longest size token, and a payload that has to be all the rest. -/
def readOnce (t : Text) : Except Error Operand :=
  match bracedName? t with
  | some name =>
    .ok (if lower name = "recall".toList then ⟨.recalled, none, []⟩ else ⟨.named, none, name⟩)
  | none =>
    if Payload.isConstant t then .ok ⟨.value, none, t⟩
    else
      let modifier := splitModifier t
      let size := longestSize modifier.2
      if IsPayload size.2 then (plain modifier.1 size.1 size.2).operand else .error (.noShape t)

theorem read_eq_readOnce (t : Text) : read t = readOnce t := by
  unfold readOnce
  cases hb : bracedName? t with
  | some name =>
    rw [read_eq_operand (read?_bracedName hb), ofName]
    dsimp only
    split <;> rfl
  | none =>
    dsimp only
    split
    · rename_i constant
      exact read_eq_operand (read?_constant constant)
    · rename_i other
      have found := read?_eq_front hb other
      rw [← splitSize_eq_longestSize]
      split
      · rename_i payload
        exact read_eq_operand (found.trans (if_pos payload))
      · rename_i refused
        rw [read, found.trans (if_neg refused)]

end MemLogic.Operand
