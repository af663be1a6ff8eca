import MemLogic.Proofs.Json.Quotation
import MemLogic.Proofs.Numeral

/-! Rendered documents: the text of a value tells which value it is and where it ends, so that no
two documents are rendered alike. -/

namespace MemLogic.Json
open Text

/-- Where no digit follows, the text of a value tells it from every other one, and tells where it
ends. -/
def Legible {α : Type} (text : α → Text) (a : α) : Prop :=
  ∀ b x y, StopsAt Char.isDigit x → StopsAt Char.isDigit y → text a ++ x = text b ++ y →
    a = b ∧ x = y

section Brackets
variable {α : Type} {text : α → Text} {as bs : List α} {opening closing : Char} {depth : Nat}
  {x y : Text}

/-- What follows an item: further items, each behind a comma, and the closing bracket. -/
def remainder (closing : Char) (depth : Nat) : List Text → Text
  | [] => newline depth ++ [closing]
  | item :: items => ',' :: newline (depth + 1) ++ item ++ remainder closing depth items

theorem intercalate_cons_append (item : Text) (items : List Text) :
    List.intercalate (',' :: newline (depth + 1)) (item :: items) ++ newline depth ++ [closing] =
      item ++ remainder closing depth items := by
  induction items generalizing item with
  | nil => simp [remainder]
  | cons next items ih =>
    rw [List.intercalate_cons_cons, List.append_assoc, List.append_assoc, List.append_assoc,
      ← List.append_assoc _ (newline depth), ih next]
    simp [remainder]

theorem enclose_cons (item : Text) (items : List Text) :
    enclose opening closing depth (item :: items) =
      opening :: newline (depth + 1) ++ (item ++ remainder closing depth items) := by
  rw [enclose, if_neg (List.cons_ne_nil _ _), List.append_assoc, List.append_assoc,
    ← List.append_assoc _ (newline depth), intercalate_cons_append]

theorem stopsAt_remainder (items : List Text) :
    StopsAt Char.isDigit (remainder closing depth items ++ x) := by
  cases items with
  | nil => exact stopsAt_cons.mpr (by decide)
  | cons => exact stopsAt_cons.mpr (by decide)

theorem remainder_append_injective (h : ∀ a ∈ as, Legible text a)
    (same : remainder closing depth (as.map text) ++ x =
      remainder closing depth (bs.map text) ++ y) : as = bs ∧ x = y := by
  induction as generalizing bs with
  | nil => cases bs with
    | nil => exact ⟨rfl, List.append_cancel_left same⟩
    | cons => exact absurd (List.cons.inj same).1 (by decide)
  | cons a as ih => cases bs with
    | nil => exact absurd (List.cons.inj same).1 (by decide)
    | cons b bs =>
      simp only [List.map_cons, remainder, List.append_assoc] at same
      obtain ⟨rfl, behind⟩ := h a List.mem_cons_self b _ _ (stopsAt_remainder _)
        (stopsAt_remainder _) (List.append_cancel_left same)
      obtain ⟨rfl, rest⟩ := ih (fun a member => h a (List.mem_cons_of_mem _ member)) behind
      exact ⟨rfl, rest⟩

theorem enclose_append_injective (other : closing ≠ '\n') (h : ∀ a ∈ as, Legible text a)
    (same : enclose opening closing depth (as.map text) ++ x =
      enclose opening closing depth (bs.map text) ++ y) : as = bs ∧ x = y := by
  cases as with
  | nil => cases bs with
    | nil => exact ⟨rfl, List.append_cancel_left same⟩
    | cons =>
      rw [List.map_cons, enclose_cons] at same
      exact absurd (List.cons.inj (List.cons.inj same).2).1 other
  | cons a as => cases bs with
    | nil =>
      rw [List.map_cons, enclose_cons] at same
      exact absurd (List.cons.inj (List.cons.inj same).2).1.symm other
    | cons b bs =>
      simp only [List.map_cons, enclose_cons, List.append_assoc] at same
      obtain ⟨rfl, behind⟩ := h a List.mem_cons_self b _ _ (stopsAt_remainder _)
        (stopsAt_remainder _) (List.append_cancel_left same)
      obtain ⟨rfl, rest⟩ := remainder_append_injective
        (fun a member => h a (List.mem_cons_of_mem _ member)) behind
      exact ⟨rfl, rest⟩

end Brackets

section Values
variable {v w : Json} {depth : Nat} {x y : Text}

inductive Form where
  | null
  | number
  | string
  | array
  | object
  deriving DecidableEq, Repr

def form : Json → Form
  | null => .null
  | number _ => .number
  | string _ => .string
  | array _ => .array
  | object _ => .object

/-- The form of the value whose text begins with a character. -/
def Form.ofFirst (c : Char) : Form :=
  if c = 'n' then .null
  else if c = '"' then .string
  else if c = '[' then .array
  else if c = '\x7b' then .object
  else .number

theorem exists_enclose_cons (opening closing : Char) (depth : Nat) (items : List Text) :
    ∃ r, enclose opening closing depth items = opening :: r := by
  cases items with
  | nil => exact ⟨_, rfl⟩
  | cons item items => exact ⟨_, enclose_cons item items⟩

theorem exists_renderAt_cons (depth : Nat) (v : Json) :
    ∃ c r, v.renderAt depth = c :: r ∧ Form.ofFirst c = v.form := by
  cases v with
  | null => exact ⟨_, _, rfl, rfl⟩
  | number value =>
    obtain ⟨c, r, same, first⟩ := Numeral.exists_integer_cons value
    refine ⟨c, r, by rw [renderAt, same], ?_⟩
    have other : c ∉ ['n', '"', '[', '\x7b'] := by
      have none : ∀ d ∈ ['n', '"', '[', '\x7b'], ¬ (d = '-' ∨ d.isDigit = true) := by decide
      exact fun member => none c member first
    simp only [List.mem_cons, List.not_mem_nil, or_false, not_or] at other
    simp [Form.ofFirst, form, other]
  | string value => exact ⟨_, _, by rw [renderAt, quote]; rfl, rfl⟩
  | array items =>
    obtain ⟨r, same⟩ := exists_enclose_cons '[' ']' depth (renderItems (depth + 1) items)
    exact ⟨_, r, by rw [renderAt, same], rfl⟩
  | object fields =>
    obtain ⟨r, same⟩ := exists_enclose_cons '\x7b' '\x7d' depth (renderFields (depth + 1) fields)
    exact ⟨_, r, by rw [renderAt, same], rfl⟩

theorem form_eq_of_renderAt (h : v.renderAt depth ++ x = w.renderAt depth ++ y) :
    v.form = w.form := by
  obtain ⟨c, r, same, form⟩ := exists_renderAt_cons depth v
  obtain ⟨c', r', same', form'⟩ := exists_renderAt_cons depth w
  rw [same, same'] at h
  rw [← form, ← form', (List.cons.inj h).1]

theorem renderItems_eq_map (depth : Nat) (items : List Json) :
    renderItems depth items = items.map (renderAt depth) := by
  induction items with
  | nil => rfl
  | cons item items ih => rw [renderItems, ih, List.map_cons]

def renderField (depth : Nat) (field : Text × Json) : Text :=
  quote field.1 ++ [':', ' '] ++ renderAt depth field.2

theorem renderFields_eq_map (depth : Nat) (fields : List (Text × Json)) :
    renderFields depth fields = fields.map (renderField depth) := by
  induction fields with
  | nil => rfl
  | cons field fields ih => rw [renderFields, ih, List.map_cons, renderField]

/-! The first character tells the form of a value. A number ends before what is no digit, and every
other value with a character of its own. -/

namespace Legible

theorem null : Legible (renderAt depth) null := by
  intro w x y _ _ same
  have form := form_eq_of_renderAt same
  cases w with
  | null => exact ⟨rfl, List.append_cancel_left same⟩
  | _ => cases form

theorem number (value : Int) : Legible (renderAt depth) (number value) := by
  intro w x y hx hy same
  have form := form_eq_of_renderAt same
  cases w with
  | number =>
    simp only [renderAt] at same
    obtain ⟨rfl, rest⟩ := Numeral.integer_append_injective hx hy same
    exact ⟨rfl, rest⟩
  | _ => cases form

theorem string (value : Text) : Legible (renderAt depth) (string value) := by
  intro w x y _ _ same
  have form := form_eq_of_renderAt same
  cases w with
  | string =>
    simp only [renderAt] at same
    obtain ⟨rfl, rest⟩ := quote_append_injective same
    exact ⟨rfl, rest⟩
  | _ => cases form

theorem array {items : List Json} (h : ∀ item ∈ items, Legible (renderAt (depth + 1)) item) :
    Legible (renderAt depth) (array items) := by
  intro w x y _ _ same
  have form := form_eq_of_renderAt same
  cases w with
  | array =>
    simp only [renderAt, renderItems_eq_map] at same
    obtain ⟨rfl, rest⟩ := enclose_append_injective (by decide) h same
    exact ⟨rfl, rest⟩
  | _ => cases form

theorem field {key : Text} (h : Legible (renderAt depth) v) :
    Legible (renderField depth) (key, v) := by
  rintro ⟨key', w⟩ x y hx hy same
  simp only [renderField, List.append_assoc] at same
  obtain ⟨rfl, behind⟩ := quote_append_injective same
  obtain ⟨rfl, rest⟩ := h w x y hx hy (List.append_cancel_left behind)
  exact ⟨rfl, rest⟩

theorem object {fields : List (Text × Json)}
    (h : ∀ field ∈ fields, Legible (renderAt (depth + 1)) field.2) :
    Legible (renderAt depth) (object fields) := by
  intro w x y _ _ same
  have form := form_eq_of_renderAt same
  cases w with
  | object =>
    simp only [renderAt, renderFields_eq_map] at same
    obtain ⟨rfl, rest⟩ :=
      enclose_append_injective (by decide) (fun _ member => (h _ member).field) same
    exact ⟨rfl, rest⟩
  | _ => cases form

end Legible

theorem legible_renderAt : ∀ (v : Json) (depth : Nat), Legible (renderAt depth) v
  | .null, _ => .null
  | .number value, _ => .number value
  | .string value, _ => .string value
  | .array items, depth => .array fun item _member => legible_renderAt item (depth + 1)
  | .object fields, depth => .object fun field _member => legible_renderAt field.2 (depth + 1)
termination_by v => v
decreasing_by
  · have smaller := List.sizeOf_lt_of_mem _member
    simp only [array.sizeOf_spec]
    omega
  · have smaller := List.sizeOf_lt_of_mem _member
    cases field
    simp only [object.sizeOf_spec, Prod.mk.sizeOf_spec] at smaller ⊢
    omega

theorem render_injective (h : v.render = w.render) : v = w := by
  refine (legible_renderAt v 0 w [] [] (stopsAt_nil _) (stopsAt_nil _) ?_).1
  rw [List.append_nil, List.append_nil]
  exact h

end Values

end MemLogic.Json
