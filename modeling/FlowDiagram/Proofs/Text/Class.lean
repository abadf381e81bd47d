import FlowDiagram.Text.Blank
import FlowDiagram.Text.Digit
import FlowDiagram.Text.Line
import FlowDiagram.Text.Word

/-!
# How the classes of characters lie to each other

The classes are lists of ranges, so that whether two of them meet is settled by looking at the
points of the smaller one. Every line end is blank, and no blank is a word character or a digit.
-/

namespace FlowDiagram.Text

/-- The points of the ranges, one after the other. -/
def CodeRanges.points (ranges : CodeRanges) : List Nat :=
  ranges.flatMap fun r => List.range' r.1 (r.2 + 1 - r.1)

theorem CodeRanges.mem_points_of_covers {ranges : CodeRanges} {n : Nat}
    (h : ranges.covers n = true) : n ∈ ranges.points := by
  obtain ⟨r, hr, hlow, hhigh⟩ := mem_of_covers h
  refine List.mem_flatMap.2 ⟨r, hr, ?_⟩
  rw [List.mem_range'_1]
  omega

/-! ### Words and blanks -/

theorem isBlank_of_isLineEnd {c : CodePoint} (h : isLineEnd c = true) : isBlank c = true := by
  have hpoints : ∀ n ∈ lineEndRanges.points, blankRanges.covers n = true := by decide +kernel
  exact hpoints _ (CodeRanges.mem_points_of_covers h)

theorem isWord_of_isBlank {c : CodePoint} (h : isBlank c = true) : isWord c = false := by
  have hpoints : ∀ n ∈ blankRanges.points, n ≠ 95 ∧ alphanumericRanges.covers n = false := by
    decide +kernel
  obtain ⟨hne, hcovers⟩ := hpoints _ (CodeRanges.mem_points_of_covers h)
  have hc : c ≠ '_' := by
    intro heq
    subst heq
    exact hne rfl
  simp [isWord, isAlphanumeric, hc, hcovers]

theorem isBlank_of_isWord {c : CodePoint} (h : isWord c = true) : isBlank c = false := by
  cases hb : isBlank c with
  | false => rfl
  | true => rw [isWord_of_isBlank hb] at h; exact absurd h (by decide)

theorem isLineEnd_of_isBlank {c : CodePoint} (h : isBlank c = false) : isLineEnd c = false := by
  cases he : isLineEnd c with
  | false => rfl
  | true => rw [isBlank_of_isLineEnd he] at h; exact absurd h (by decide)

/-! ### Digits and blanks -/

theorem isBlank_of_isDecimalDigit {c : CodePoint} (h : isDecimalDigit c = true) :
    isBlank c = false := by
  have hpoints : ∀ n ∈ blankRanges.points,
      zeroDigits.find? (fun low => low ≤ n && n < low + 10) = none := by decide +kernel
  cases hb : isBlank c with
  | false => rfl
  | true =>
    have hnone := hpoints _ (CodeRanges.mem_points_of_covers hb)
    rw [isDecimalDigit, digitValue?, hnone] at h
    exact absurd h (by simp)

/-! ### ASCII letters -/

theorem isWord_of_isAsciiLetter {c : CodePoint} (h : c.isAsciiLetter = true) :
    isWord c = true := by
  have hpoints : ∀ n ∈ List.range' 65 26 ++ List.range' 97 26,
      alphanumericRanges.covers n = true := by decide +kernel
  have hval : c.val ∈ List.range' 65 26 ++ List.range' 97 26 := by
    simp only [CodePoint.isAsciiLetter, Bool.or_eq_true, Bool.and_eq_true,
      decide_eq_true_eq] at h
    simp only [List.mem_append, List.mem_range'_1]
    omega
  have hcovers : isAlphanumeric c = true := hpoints c.val hval
  simp [isWord, hcovers]

/-- What becomes an ASCII letter in lower case is a word character. -/
theorem isWord_of_toLowerAscii {c : CodePoint} (h : c.toLowerAscii.isAsciiLetter = true) :
    isWord c = true := by
  unfold CodePoint.toLowerAscii at h
  split at h
  · rename_i hupper
    refine isWord_of_isAsciiLetter ?_
    simp [CodePoint.isAsciiLetter, hupper]
  · exact isWord_of_isAsciiLetter h

/-! ### Different characters -/

/-- A class tells two characters apart. -/
theorem ne_of_class {p : CodePoint → Bool} {c d : CodePoint} (hc : p c = true)
    (hd : p d = false) : c ≠ d := by
  intro heq
  subst heq
  rw [hc] at hd
  exact absurd hd (by decide)

end FlowDiagram.Text
