import FlowDiagram.Text.Basic

/-!
# Ranges of code points

A class of characters is given by the ascending list of its ranges of code points. A search stops
at the first range that ends beyond the point asked for.
-/

namespace FlowDiagram.Text

/-- The closed ranges of a class of characters, in ascending order. -/
abbrev CodeRanges := List (Nat × Nat)

def CodeRanges.covers : CodeRanges → Nat → Bool
  | [], _ => false
  | (low, high) :: rest, n =>
    if n < low then false else if n ≤ high then true else CodeRanges.covers rest n

theorem CodeRanges.mem_of_covers {ranges : CodeRanges} {n : Nat} (h : ranges.covers n = true) :
    ∃ r ∈ ranges, r.1 ≤ n ∧ n ≤ r.2 := by
  induction ranges with
  | nil => simp [covers] at h
  | cons r rest ih =>
    obtain ⟨low, high⟩ := r
    unfold covers at h
    split at h
    · simp at h
    · split at h
      · exact ⟨(low, high), by simp, by omega, by omega⟩
      · obtain ⟨r, hr, hn⟩ := ih h
        exact ⟨r, by simp [hr], hn⟩

end FlowDiagram.Text
