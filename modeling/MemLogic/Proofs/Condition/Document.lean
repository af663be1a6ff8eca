import MemLogic.Condition.Document
import MemLogic.Proofs.Json.Rendering
import MemLogic.Proofs.Requirement.Meaning

/-! Documents of conditions: every field is in them, so that no two conditions have one document,
nor two documents one text. -/

namespace MemLogic

theorem Kind.word_injective {k k' : Kind} (h : k.word = k'.word) : k = k' := by
  have apart : ∀ k ∈ all, ∀ k' ∈ all, k.word = k'.word → k = k' := by decide
  exact apart k (mem_all k) k' (mem_all k') h

theorem Size.token_injective {s s' : Size} (h : s.token = s'.token) : s = s' := by
  have read := ofToken_token s
  rw [h, ofToken_token s'] at read
  exact (Except.ok.inj read).symm

theorem Comparator.symbol_injective {c c' : Comparator} (h : c.symbol = c'.symbol) : c = c' := by
  have read := ofSymbol_symbol c
  rw [h, ofSymbol_symbol c'] at read
  exact (Except.ok.inj read).symm

/-- An optional field is null without a value and never null with one. -/
theorem Json.optional_injective {α : Type} {f : α → Json} (apart : Function.Injective f)
    (present : ∀ a, f a ≠ .null) {a b : Option α}
    (h : (a.map f).getD .null = (b.map f).getD .null) : a = b := by
  cases a with
  | none => cases b with
    | none => rfl
    | some b => exact absurd h.symm (present b)
  | some a => cases b with
    | none => exact absurd h (present a)
    | some b => exact congrArg some (apart h)

theorem Operand.document_injective {o o' : Operand} (h : o.document = o'.document) : o = o' := by
  obtain ⟨kind, size, value⟩ := o
  obtain ⟨kind', size', value'⟩ := o'
  simp only [document, Json.object.injEq, List.cons.injEq, Prod.mk.injEq, Json.string.injEq,
    true_and, and_true] at h
  obtain ⟨word, token, rfl⟩ := h
  obtain rfl := Kind.word_injective word
  obtain rfl := Json.optional_injective
    (fun _ _ same => Size.token_injective (Json.string.inj same)) (fun _ => nofun) token
  rfl

theorem Requirement.document_injective {q q' : Requirement} (h : q.document = q'.document) :
    q = q' := by
  obtain ⟨flag, left, comparator, right, hits⟩ := q
  obtain ⟨flag', left', comparator', right', hits'⟩ := q'
  simp only [document, Json.object.injEq, List.cons.injEq, Prod.mk.injEq, Json.string.injEq,
    true_and, and_true] at h
  obtain ⟨letter, first, symbol, second, number⟩ := h
  obtain rfl := Flag.letter_injective letter
  obtain rfl := Operand.document_injective first
  obtain rfl := Comparator.symbol_injective symbol
  obtain rfl := Operand.document_injective second
  obtain rfl := Json.optional_injective (fun _ _ => Json.number.inj) (fun _ => nofun) number
  rfl

namespace Condition

variable {c c' : Condition}

theorem document_injective (h : c.document = c'.document) : c = c' := by
  obtain ⟨groups, addresses⟩ := c
  obtain ⟨groups', addresses'⟩ := c'
  simp only [document, Json.object.injEq, List.cons.injEq, Prod.mk.injEq, Json.array.injEq,
    true_and, and_true] at h
  obtain ⟨listed, written⟩ := h
  have group :
      Function.Injective fun group : Group => Json.array (group.map Requirement.document) :=
    fun _ _ same => List.map_injective_iff.mpr (fun _ _ => Requirement.document_injective)
      (Json.array.inj same)
  have string : Function.Injective Json.string := fun _ _ => Json.string.inj
  rw [List.map_injective_iff.mpr group listed, List.map_injective_iff.mpr string written]

/-- The text of a document tells all of the condition. -/
theorem render_document_inj : c.document.render = c'.document.render ↔ c = c' :=
  ⟨fun h => document_injective (Json.render_injective h), fun h => by rw [h]⟩

end Condition
end MemLogic
