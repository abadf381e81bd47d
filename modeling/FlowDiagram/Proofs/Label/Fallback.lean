import FlowDiagram.Proofs.Label.Written
import FlowDiagram.Proofs.Text.Class

/-!
# When the fallback stands for a label

The fallback is put where sanitizing leaves nothing, and it is put there as it is. So a sanitized
label has no meaning in code except where a fallback that has one takes the place of a raw text of
structural characters and blanks.
-/

namespace FlowDiagram.Label
open FlowDiagram.Text

/-- Neither a structural character nor the end of a line. -/
def isInert (c : CodePoint) : Bool := !isStructural c && !isLineEnd c

/-- Something of the text is left in the label that is made of it. -/
def leavesLabel (t : Text) : Bool := t.any fun c => !isStructural c && !isBlank c

theorem leavesLabel_iff {t : Text} :
    leavesLabel t = true ↔ ∃ c ∈ t, isStructural c = false ∧ isBlank c = false := by
  simp [leavesLabel, List.any_eq_true]

/-! ### What sanitizing keeps -/

theorem mem_collapse_of_not_blank {c : CodePoint} {t : Text} (hc : c ∈ t)
    (hblank : isBlank c = false) : c ∈ collapse t := by
  induction t with
  | nil => exact absurd hc (by simp)
  | cons d t ih =>
    unfold collapse
    rcases List.mem_cons.1 hc with rfl | hc
    · simp [hblank]
    · have htail : c ∈ collapse t := ih hc
      split
      · split
        · exact htail
        · exact List.mem_cons_of_mem _ htail
      · exact List.mem_cons_of_mem _ htail

theorem remainder_eq_nil_iff {raw : Text} : remainder raw = [] ↔ leavesLabel raw = false := by
  rw [remainder, trim_eq_nil_iff, ← Bool.not_eq_true, leavesLabel_iff]
  constructor
  · intro hall hleaves
    obtain ⟨c, hc, hstructural, hblank⟩ := hleaves
    have hmem : c ∈ raw.filter fun c => !isStructural c :=
      List.mem_filter.2 ⟨hc, by simp [hstructural]⟩
    rw [hall c (mem_collapse_of_not_blank hmem hblank)] at hblank
    exact absurd hblank (by decide)
  · intro hnone c hc
    rcases mem_collapse hc with rfl | ⟨hmem, hblank⟩
    · decide
    · obtain ⟨hraw, hstructural⟩ := List.mem_filter.1 hmem
      exact absurd ⟨c, hraw, by simpa using hstructural, hblank⟩ hnone

theorem isInert_of_mem_remainder {raw : Text} {c : CodePoint} (h : c ∈ remainder raw) :
    isInert c = true := by
  rcases mem_remainder h with rfl | ⟨-, hstructural, hblank⟩
  · decide
  · simp [isInert, hstructural, isLineEnd_of_isBlank hblank]

/-! ### Where the fallback comes in -/

section
variable {raw : Text} (fallback : Text)

theorem sanitize_of_leavesLabel (h : leavesLabel raw = true) :
    sanitize fallback raw = remainder raw := by
  rw [sanitize_eq, if_neg]
  rw [remainder_eq_nil_iff, h]
  decide

theorem sanitize_of_not_leavesLabel (h : leavesLabel raw = false) :
    sanitize fallback raw = fallback := by
  rw [sanitize_eq, if_pos (remainder_eq_nil_iff.2 h)]

theorem sanitize_ne_nil (hne : fallback ≠ []) (raw : Text) : sanitize fallback raw ≠ [] := by
  rw [sanitize_eq]
  split
  · exact hne
  · assumption

/-- Meaning comes into a label with the fallback or not at all. -/
theorem forall_isInert_sanitize_iff :
    (∀ c ∈ sanitize fallback raw, isInert c = true) ↔
      (∀ c ∈ fallback, isInert c = true) ∨ leavesLabel raw = true := by
  cases h : leavesLabel raw with
  | true =>
    rw [sanitize_of_leavesLabel fallback h]
    exact iff_of_true (fun c => isInert_of_mem_remainder) (Or.inr rfl)
  | false =>
    rw [sanitize_of_not_leavesLabel fallback h]
    simp

end

end FlowDiagram.Label
