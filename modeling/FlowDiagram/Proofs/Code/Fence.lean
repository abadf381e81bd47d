import FlowDiagram.Code.Fence
import FlowDiagram.Proofs.Text.Scanner

/-!
# The parts of a fenced text

An opening fence is read with its tag, the gap behind the tag and one line end; a closing fence is
taken off with the line end before it. A trimmed text with no backtick at either end has no fence
around it and stays as it is.
-/

namespace FlowDiagram.Code
open FlowDiagram.Text FlowDiagram.Text.Scanner

/-! ### The opening fence -/

theorem read_openingFence_eq_some_iff {t lexeme rest : Text} :
    openingFence.read t = some (lexeme, rest) ↔
      ∃ tag gap feed, lexeme = fence ++ tag ++ gap ++ feed ∧ t = lexeme ++ rest ∧
        (∀ c ∈ tag, isTagChar c = true) ∧ Stops isTagChar (gap ++ feed ++ rest) ∧
        (∀ c ∈ gap, isGap c = true) ∧ Stops isGap (feed ++ rest) ∧
        (feed = [CodePoint.ofChar '\n'] ∨ (feed = [] ∧ Stops (· == '\n') rest)) := by
  simp only [openingFence, read_seq_eq_some_iff, read_literal_eq_some_iff,
    read_atLeast_eq_some_iff, read_optional_eq_some_iff]
  constructor
  · intro hread
    obtain ⟨_, _, feed, ⟨_, _, gap, ⟨_, _, tag, ⟨rfl, rfl⟩, ⟨rfl, htag, htagStop, -⟩, rfl⟩,
      ⟨rfl, hgap, hgapStop, -⟩, rfl⟩, hfeed, rfl⟩ := hread
    rcases hfeed with ⟨rfl, rfl⟩ | ⟨rfl, rfl, hstop⟩
    · exact ⟨tag, gap, _, rfl, by simp, htag, by simpa using htagStop, hgap, hgapStop,
        Or.inl rfl⟩
    · exact ⟨tag, gap, [], rfl, by simp, htag, by simpa using htagStop, hgap, hgapStop,
        Or.inr ⟨rfl, hstop⟩⟩
  · intro hform
    obtain ⟨tag, gap, feed, rfl, rfl, htag, htagStop, hgap, hgapStop, hfeed⟩ := hform
    refine ⟨fence ++ tag ++ gap, feed ++ rest, feed, ⟨fence ++ tag, gap ++ feed ++ rest, gap,
      ⟨fence, tag ++ gap ++ feed ++ rest, tag, ⟨rfl, by simp⟩,
        ⟨by simp, htag, htagStop, Nat.zero_le _⟩, rfl⟩,
      ⟨by simp, hgap, hgapStop, Nat.zero_le _⟩, rfl⟩, ?_, rfl⟩
    rcases hfeed with rfl | ⟨rfl, hstop⟩
    · exact Or.inl ⟨rfl, rfl⟩
    · exact Or.inr ⟨rfl, rfl, hstop⟩

theorem exists_read_openingFence (t : Text) :
    ∃ result, openingFence.read (fence ++ t) = some result := by
  obtain ⟨⟨tag, u⟩, htag⟩ := exists_read_atLeast_zero isTagChar t
  obtain ⟨⟨gap, v⟩, hgap⟩ := exists_read_atLeast_zero isGap u
  obtain ⟨⟨feed, rest⟩, hfeed⟩ := exists_read_optional '\n' v
  have hfence : (literal fence).read (fence ++ t) = some (fence, t) :=
    read_literal_eq_some_iff.2 ⟨rfl, rfl⟩
  refine ⟨(fence ++ tag ++ gap ++ feed, rest), ?_⟩
  simp only [openingFence, read_seq_eq_some_iff]
  exact ⟨_, v, feed, ⟨_, u, gap, ⟨fence, t, tag, hfence, htag, rfl⟩, hgap, rfl⟩, hfeed, rfl⟩

theorem read_openingFence_eq_none_iff {t : Text} :
    openingFence.read t = none ↔ ¬ fence <+: t := by
  constructor
  · intro hnone hopen
    obtain ⟨u, rfl⟩ := hopen
    obtain ⟨result, hread⟩ := exists_read_openingFence u
    rw [hread] at hnone
    exact absurd hnone (by simp)
  · intro hnot
    cases hread : openingFence.read t with
    | none => rfl
    | some result =>
      obtain ⟨tag, gap, feed, hlex, rfl, -⟩ := read_openingFence_eq_some_iff.1 hread
      rw [hlex] at hnot
      exact absurd ⟨tag ++ gap ++ feed ++ result.2, by simp⟩ hnot

/-- What follows a tag, the gap behind it and one line end. -/
def behindTag (t : Text) : Text :=
  (optional '\n').strip ((t.dropWhile isTagChar).dropWhile isGap)

theorem strip_openingFence (t : Text) : openingFence.strip (fence ++ t) = behindTag t := by
  obtain ⟨⟨feed, rest⟩, hfeed⟩ :=
    exists_read_optional '\n' ((t.dropWhile isTagChar).dropWhile isGap)
  have hread : openingFence.read (fence ++ t) =
      some (fence ++ t.takeWhile isTagChar ++ (t.dropWhile isTagChar).takeWhile isGap ++ feed,
        rest) := by
    simp only [openingFence, read_seq_eq_some_iff]
    exact ⟨_, _, feed, ⟨_, t.dropWhile isTagChar, _, ⟨fence, t, _,
      read_literal_eq_some_iff.2 ⟨rfl, rfl⟩, rfl, rfl⟩, rfl, rfl⟩, hfeed, rfl⟩
  rw [strip_of_read hread, behindTag, strip_of_read hfeed]

/-! ### The closing fence -/

theorem dropClosingFence_of_not_suffix {t : Text} (h : ¬ fence <:+ t) :
    dropClosingFence t = t := by
  have hfeed : ¬ (Text.ofString "\n" ++ fence) <:+ t := fun hs =>
    h ((List.suffix_append _ fence).trans hs)
  unfold dropClosingFence
  rw [if_neg (by rwa [List.isSuffixOf_iff_suffix]), if_neg (by rwa [List.isSuffixOf_iff_suffix])]

theorem dropClosingFence_lineFeed (t : Text) :
    dropClosingFence (t ++ (Text.ofString "\n" ++ fence)) = t := by
  have hsuffix : (Text.ofString "\n" ++ fence) <:+ t ++ (Text.ofString "\n" ++ fence) :=
    List.suffix_append _ _
  have hlen : (t ++ (Text.ofString "\n" ++ fence)).length - 4 = t.length := by
    have hfour : (Text.ofString "\n" ++ fence).length = 4 := rfl
    rw [List.length_append, hfour]
    omega
  unfold dropClosingFence
  rw [if_pos (List.isSuffixOf_iff_suffix.2 hsuffix), hlen, List.take_left]

theorem dropClosingFence_fence {t : Text} (h : t.getLast? ≠ some (CodePoint.ofChar '\n')) :
    dropClosingFence (t ++ fence) = t := by
  have hsuffix : fence <:+ t ++ fence := List.suffix_append _ _
  have hfeed : ¬ (Text.ofString "\n" ++ fence) <:+ t ++ fence := by
    rw [List.suffix_append_self_iff]
    intro hends
    obtain ⟨u, rfl⟩ := hends
    exact h (by simp [Text.ofString])
  have hlen : (t ++ fence).length - 3 = t.length := by
    have hthree : fence.length = 3 := rfl
    rw [List.length_append, hthree]
    omega
  unfold dropClosingFence
  rw [if_neg (by rwa [List.isSuffixOf_iff_suffix]),
    if_pos (List.isSuffixOf_iff_suffix.2 hsuffix), hlen, List.take_left]

/-- What is taken off is one of the two forms of a closing fence. -/
theorem dropClosingFence_cases (t : Text) :
    (¬ fence <:+ t ∧ dropClosingFence t = t) ∨
      t = dropClosingFence t ++ (Text.ofString "\n" ++ fence) ∨
      (t = dropClosingFence t ++ fence ∧
        (dropClosingFence t).getLast? ≠ some (CodePoint.ofChar '\n')) := by
  by_cases hfence : fence <:+ t
  · obtain ⟨u, rfl⟩ := hfence
    by_cases hfeed : u.getLast? = some (CodePoint.ofChar '\n')
    · obtain ⟨v, rfl⟩ := List.getLast?_eq_some_iff.1 hfeed
      right; left
      have hshape : v ++ [CodePoint.ofChar '\n'] ++ fence =
          v ++ (Text.ofString "\n" ++ fence) := by
        rw [List.append_assoc]
        rfl
      rw [hshape, dropClosingFence_lineFeed]
    · right; right
      rw [dropClosingFence_fence hfeed]
      exact ⟨rfl, hfeed⟩
  · exact Or.inl ⟨hfence, dropClosingFence_of_not_suffix hfence⟩

theorem isPrefix_dropClosingFence (t : Text) : dropClosingFence t <+: t := by
  unfold dropClosingFence
  split
  · exact List.take_prefix _ _
  · split
    · exact List.take_prefix _ _
    · exact List.prefix_rfl

/-! ### Around the code -/

/-- The characters that are taken off with a fence. -/
def isFencing (c : CodePoint) : Bool := isBlank c || isTagChar c || c == '\x60'

theorem isFencing_of_isBlank {c : CodePoint} (h : isBlank c = true) : isFencing c = true := by
  simp [isFencing, h]

theorem exists_strip_openingFence (t : Text) :
    ∃ l, t = l ++ openingFence.strip t ∧ ∀ c ∈ l, isFencing c = true := by
  cases hread : openingFence.read t with
  | none => exact ⟨[], by rw [strip_of_none hread]; rfl, by simp⟩
  | some result =>
    obtain ⟨lexeme, rest⟩ := result
    obtain ⟨tag, gap, feed, rfl, rfl, htag, -, hgap, -, hfeed⟩ :=
      read_openingFence_eq_some_iff.1 hread
    refine ⟨_, by rw [strip_of_read hread], ?_⟩
    intro c hc
    simp only [List.mem_append] at hc
    rcases hc with ((hc | hc) | hc) | hc
    · have hall : ∀ d ∈ fence, isFencing d = true := by decide
      exact hall c hc
    · simp [isFencing, htag c hc]
    · exact isFencing_of_isBlank (isBlank_of_isGap (hgap c hc))
    · rcases hfeed with rfl | ⟨rfl, -⟩
      · obtain rfl := List.mem_singleton.1 hc
        decide
      · simp at hc

theorem exists_dropClosingFence (t : Text) :
    ∃ r, t = dropClosingFence t ++ r ∧ ∀ c ∈ r, isFencing c = true := by
  rcases dropClosingFence_cases t with ⟨-, h⟩ | h | ⟨h, -⟩
  · exact ⟨[], by rw [h, List.append_nil], by simp⟩
  · exact ⟨_, h, by decide⟩
  · exact ⟨_, h, by decide⟩

/-- The code stands in the text, and around it only what makes up a fence. -/
theorem exists_unfence (t : Text) :
    ∃ l r, t = l ++ unfence t ++ r ∧ (∀ c ∈ l, isFencing c = true) ∧
      ∀ c ∈ r, isFencing c = true := by
  obtain ⟨l, r, hl, hr, ht, -⟩ := exists_trim t
  obtain ⟨opening, hopening, hopeningChars⟩ := exists_strip_openingFence (trim t)
  obtain ⟨closing, hclosing, hclosingChars⟩ :=
    exists_dropClosingFence (openingFence.strip (trim t))
  obtain ⟨l', r', hl', hr', hinner, -⟩ :=
    exists_trim (dropClosingFence (openingFence.strip (trim t)))
  refine ⟨l ++ opening ++ l', r' ++ closing ++ r, ?_, ?_, ?_⟩
  · have hcode : t = l ++ (opening ++ (l' ++ unfence t ++ r' ++ closing)) ++ r := by
      rw [unfence, ← hinner, ← hclosing, ← hopening, ← ht]
    exact hcode.trans (by simp only [List.append_assoc])
  · intro c hc
    simp only [List.mem_append] at hc
    rcases hc with (hc | hc) | hc
    · exact isFencing_of_isBlank (hl c hc)
    · exact hopeningChars c hc
    · exact isFencing_of_isBlank (hl' c hc)
  · intro c hc
    simp only [List.mem_append] at hc
    rcases hc with (hc | hc) | hc
    · exact isFencing_of_isBlank (hr' c hc)
    · exact hclosingChars c hc
    · exact isFencing_of_isBlank (hr c hc)

theorem infix_unfence (t : Text) : unfence t <:+: t := by
  obtain ⟨l, r, ht, -, -⟩ := exists_unfence t
  exact ⟨l, r, ht.symm⟩

/-! ### Texts without a fence around them -/

theorem unfence_eq_self {t : Text} (ht : Trimmed t)
    (hfirst : t.head? ≠ some (CodePoint.ofChar '\x60'))
    (hlast : t.getLast? ≠ some (CodePoint.ofChar '\x60')) : unfence t = t := by
  have hopen : openingFence.read t = none := by
    rw [read_openingFence_eq_none_iff]
    intro hopens
    obtain ⟨u, rfl⟩ := hopens
    exact hfirst rfl
  have hclose : ¬ fence <:+ t := by
    intro hends
    obtain ⟨u, rfl⟩ := hends
    exact hlast (by rw [List.getLast?_append]; rfl)
  rw [unfence, trim_eq_self ht, strip_of_none hopen, dropClosingFence_of_not_suffix hclose,
    trim_eq_self ht]

end FlowDiagram.Code
