import MemLogic.Proofs.Operand.Denotation
import MemLogic.Proofs.Requirement.LongestReading

/-! Well-formed requirements: the readings of well-formed pieces are the ones that are found. -/

namespace MemLogic.Requirement
open Text Operand.Spelling Spelling
namespace Reading

/-- Well-formed pieces and the requirement they stand for. -/
structure Denotes (r : Reading) (q : Requirement) : Prop where
  flag : r.Flags q.flag
  left : Operand.Denotes r.left q.left
  comparison : match r.comparison with
    | none => q.comparator = .eq ∧ q.right = .blank
    | some (symbol, right) => IsComparator symbol ∧
        q.comparator.symbol = (if symbol = "==".toList then "=".toList else symbol) ∧
          Operand.Denotes right q.right
  hits : r.hits = [] ∨ IsHitCount r.hits
  short : r.digits.length ≤ Numeral.maxDigits
  count : q.hits = if q.flag.accumulates then none
    else some (Numeral.ofDigits (r.digits.map fun d => d.toNat - '0'.toNat) : Int)

variable {r : Reading} {q : Requirement}

theorem IsOperand.of_read {t : Text} {o : Operand} (h : Operand.read t = .ok o) : IsOperand t := by
  intro segment fails
  rw [h] at fails
  exact absurd fails (by simp)

theorem Denotes.isValid (h : r.Denotes q) : r.IsValid where
  flag := by
    rcases h.flag with ⟨empty, _⟩ | ⟨c, split, letter⟩
    · exact .inl empty
    · have known : ∀ f ∈ Flag.all, ∀ d ∈ f.letter, d ∈ "PRABCDNOMQITZGK".toList := by decide
      exact .inr ⟨c, known q.flag (Flag.mem_all _) _ (by simp [letter]), split⟩
  left := IsOperand.of_read h.left.read_eq_ok
  comparison symbol right same := by
    have pieces := h.comparison
    rw [same] at pieces
    exact ⟨pieces.1, IsOperand.of_read pieces.2.2.read_eq_ok⟩
  hits := h.hits

/-- The comparator of well-formed sides is not taken for the sign of the left operand, which has a
payload before it. -/
theorem Denotes.scan_left (h : r.Denotes q) {s : Spelling} (spelled : r.SpelledAs s) :
    scan (r.left ++ r.comparisonText) = (s.left, r.comparisonText) := by
  have sides := spelled.sides
  rcases sides.scan_or_sign with scanned | ⟨d, right, _, _, same, _, front⟩
  · rw [scanned, comparisonText_eq]
  · have text : r.comparisonText = d :: right := by
      rw [comparisonText_eq, same]
      rfl
    rw [text] at front
    have within := isCut_splitFront.within r.left (d :: right) (by rw [front])
    rw [within] at front
    exact absurd (by simpa using front) h.left.splitFront_ne_nil

theorem Denotes.isLongest (h : r.Denotes q) : r.IsLongest r.text where
  valid := h.isValid
  text := rfl
  longest r' valid same := by
    obtain ⟨s, spelled⟩ := (isValid_iff r).mp h.isValid
    obtain ⟨s', spelled'⟩ := (isValid_iff r').mp valid
    obtain ⟨_, body, _⟩ := spelled'.same_body spelled same
    have bound := isCut_scan.longest r'.left r'.comparisonText
    rw [body, h.scan_left spelled, read?_eq_some.mp spelled'.sides.operand] at bound
    have total := congrArg List.length body
    simp only [List.length_append, List.length_nil] at total bound
    omega

theorem Denotes.yields (h : r.Denotes q) : r.Yields q where
  flag := h.flag
  left := h.left.read_eq_ok
  comparison := by
    have pieces := h.comparison
    unfold Compares
    split
    · rename_i same
      rw [same] at pieces
      exact pieces
    · rename_i same
      rw [same] at pieces
      exact ⟨pieces.2.1, pieces.2.2.read_eq_ok⟩
  hits := by
    have count := h.count
    unfold Counts
    split
    · rename_i accumulates
      rwa [if_pos accumulates] at count
    · rename_i counted
      rw [if_neg counted] at count
      exact ⟨h.short, count⟩

/-- Well-formed pieces in a row are read as what they stand for. -/
theorem Denotes.read_eq_ok (h : r.Denotes q) : read r.text = .ok q :=
  h.isLongest.read_eq_ok.mpr h.yields

end Reading
end MemLogic.Requirement
