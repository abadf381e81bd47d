import FlowDiagram.Proofs.Code.Steps

/-!
# Cleaning a second time

Every step goes through the text once, so that a repair can bring up a lexeme that only a second
pass meets: a shorter split arrow behind the first, a tag around a tag, a label that has become short
enough. Cleaned code is left as it is by cleaning exactly if none of these is in it.
-/

namespace FlowDiagram.Code
open FlowDiagram.Text FlowDiagram.Text.Scanner

/-! ### What each step takes away -/

theorem IsGapRun.countP_isBlank {gap : Text} (h : IsGapRun gap) :
    gap.countP isBlank = gap.length :=
  List.countP_eq_length.2 fun c hc => isBlank_of_isGap (h.chars c hc)

/-- Each gap that goes takes a blank with it at least. -/
theorem ReadsGap.countP_substitute {scanner : Scanner} {l r replacement : Text}
    (h : ReadsGap scanner l r) (hsteady : Steady (scanner.replaceBy replacement))
    (hnone : replacement.countP isBlank = 0) (t : Text) :
    (substitute (scanner.replaceBy replacement) t).countP isBlank +
        (replacements (scanner.replaceBy replacement) t).length ≤ t.countP isBlank := by
  have hstep := hsteady.countP_substitute (p := isBlank) (k := 1) (t := t) ?_
  · simpa using hstep
  · intro t lexeme x hread
    obtain ⟨rfl, rest, hscan⟩ := replaceBy_eq_some_iff.1 hread
    obtain ⟨gap, hgap, rfl, -⟩ := h.1 hscan
    have hpos := List.length_pos_iff.2 hgap.ne_nil
    rw [List.countP_append, List.countP_append, hgap.countP_isBlank, hnone]
    omega

theorem countP_closeLabelledArrow (t : Text) :
    (substitute closeLabelledArrow t).countP isBlank ≤ t.countP isBlank := by
  have hstep := headed_closeLabelledArrow.countP_substitute (p := isBlank) (k := 0) (t := t) ?_
  · simpa using hstep
  · intro t lexeme x h
    obtain ⟨a, rfl, rfl, -⟩ := closeLabelledArrow_eq_some_iff.1 h
    have hopening := List.length_pos_iff.2 a.isGapRun.ne_nil
    have hclosing := List.length_pos_iff.2 a.closing.isGapRun.ne_nil
    have hlabel : (trim a.label).countP isBlank ≤ a.label.countP isBlank :=
      (infix_trim a.label).sublist.countP_le
    have hwritten : (Text.ofString "-- ").countP isBlank = 1 ∧
        (Text.ofString " -->").countP isBlank = 1 := by decide
    rw [LabelledArrow.written, LabelledArrow.text_eq, Closing.text, Closing.body]
    simp only [List.countP_append, a.isGapRun.countP_isBlank, a.closing.isGapRun.countP_isBlank,
      hwritten.1, hwritten.2]
    omega

theorem count_breakLines (t : Text) :
    (breakLines t).count (CodePoint.ofChar '<') +
        (replacements (breakTag.replaceBy "\n") t).length ≤ t.count (CodePoint.ofChar '<') := by
  have hstep := (steady_breakTag "\n").countP_substitute (p := (· == CodePoint.ofChar '<'))
    (k := 1) (t := t) ?_
  · simpa [List.count_eq_countP, breakLines] using hstep
  · intro t lexeme x h
    obtain ⟨rfl, rest, hread⟩ := replaceBy_eq_some_iff.1 h
    obtain ⟨b, r, blanks, slash, -, -, -, -, rfl, -⟩ := exists_of_read_breakTag hread
    have hnone : (Text.ofString "\n").countP (· == CodePoint.ofChar '<') = 0 := by decide
    rw [hnone, List.countP_cons]
    simp

theorem count_clean (t : Text) :
    (clean t).count (CodePoint.ofChar '<') = (breakLines t).count (CodePoint.ofChar '<') := by
  obtain ⟨u, v, hu, hv, hclean⟩ := exists_redrawn_clean t
  have hblank : isBlank '<' = false := by decide
  rw [← hclean.count_eq (by decide) hblank, ← hv.count_eq (by decide) hblank,
    ← hu.count_eq (by decide) hblank]

/-! ### Fixed points -/

theorem search_breakTag_of_clean {w : Text} (h : clean w = w) : breakTag.search w = none := by
  have hcount := count_clean w
  have hstep := count_breakLines w
  rw [h] at hcount
  rw [search_eq_none_iff_replacements (steady_breakTag "\n"), ← List.length_eq_zero_iff]
  omega

theorem search_of_repairArrows {w : Text} (h : repairArrows w = w) :
    splitLongArrow.search w = none ∧ splitShortArrow.search w = none := by
  have hlong := readsGap_splitLongArrow.countP_substitute headed_splitLongArrow.toSteady
    (by decide) w
  have hshort := readsGap_splitShortArrow.countP_substitute headed_splitShortArrow.toSteady
    (by decide) (substitute (splitLongArrow.replaceBy "-->") w)
  have hlabel := countP_closeLabelledArrow (closeArrows w)
  rw [← repairArrows, h, closeArrows] at hlabel
  have hnone : splitLongArrow.search w = none := by
    rw [search_eq_none_iff_replacements headed_splitLongArrow.toSteady, ← List.length_eq_zero_iff]
    omega
  rw [substitute_eq_self_of_search hnone] at hshort hlabel
  refine ⟨hnone, ?_⟩
  rw [search_eq_none_iff_replacements headed_splitShortArrow.toSteady, ← List.length_eq_zero_iff]
  omega

/-- Cleaning leaves a text as it is exactly if no step has anything to change in it. -/
theorem clean_eq_self_iff (w : Text) :
    clean w = w ↔ breakTag.search w = none ∧ splitLongArrow.search w = none ∧
      splitShortArrow.search w = none ∧
      ∀ result ∈ replacements closeLabelledArrow w, result.2 = result.1 := by
  rw [← headed_closeLabelledArrow.substitute_eq_self_iff]
  constructor
  · intro h
    have htag := search_breakTag_of_clean h
    have hbreak : breakLines w = w := substitute_eq_self_of_search htag
    have hrepair : repairArrows w = w := by
      rwa [clean_eq_repairArrows, hbreak] at h
    obtain ⟨hlong, hshort⟩ := search_of_repairArrows hrepair
    refine ⟨htag, hlong, hshort, ?_⟩
    rwa [repairArrows, closeArrows, substitute_eq_self_of_search hlong,
      substitute_eq_self_of_search hshort] at hrepair
  · intro h
    obtain ⟨htag, hlong, hshort, hlabel⟩ := h
    rw [clean, breakLines, substitute_eq_self_of_search htag, closeArrows,
      substitute_eq_self_of_search hlong, substitute_eq_self_of_search hshort, hlabel]

/-! ### What a second pass meets -/

/-- Whatever an arrow is replaced by ends in the head of an arrow. -/
def PutsArrow (r : Replacer) : Prop :=
  ∀ {t lexeme y}, r t = some (lexeme, y ++ [CodePoint.ofChar '>']) →
    ∃ z, y = z ++ Text.ofString "-"

/-- No long arrow with a gap ends where an arrow has been put. -/
theorem PutsArrow.read_splitLongArrow {r : Replacer} (hr : PutsArrow r) {t lexeme y : Text}
    (h : r t = some (lexeme, y ++ [CodePoint.ofChar '>'])) (v : Text)
    (hhead : CodePoint.ofChar '>' ∉ v ++ y) (u : Text) (hu : u <:+ v ++ y) :
    splitLongArrow.replaceBy "-->" (u ++ [CodePoint.ofChar '>']) = none := by
  obtain ⟨z, rfl⟩ := hr h
  have hfree : CodePoint.ofChar '>' ∉ u := fun hmem => hhead (hu.subset hmem)
  obtain ⟨w, hw⟩ := hu
  cases hread : splitLongArrow.replaceBy "-->" (u ++ [CodePoint.ofChar '>']) with
  | none => rfl
  | some result =>
    obtain ⟨l, x⟩ := result
    obtain ⟨-, rest, hlong⟩ := replaceBy_eq_some_iff.1 hread
    obtain ⟨gap, hgap, rfl, -⟩ := read_splitLongArrow_eq_some_iff.1 hlong
    have hu : Text.ofString "--" ++ gap = u :=
      List.append_cancel_right (headed_splitLongArrow.lexeme_eq hfree hread)
    rw [← hu, ← List.append_assoc, ← List.append_assoc] at hw
    exact absurd hw (hgap.append_ne _ _)

theorem putsArrow_splitLongArrow : PutsArrow (splitLongArrow.replaceBy "-->") := by
  intro t lexeme y h
  obtain ⟨heq, -⟩ := replaceBy_eq_some_iff.1 h
  exact ⟨"-", List.append_cancel_right heq⟩

theorem putsArrow_splitShortArrow : PutsArrow (splitShortArrow.replaceBy "->") := by
  intro t lexeme y h
  obtain ⟨heq, -⟩ := replaceBy_eq_some_iff.1 h
  exact ⟨[], List.append_cancel_right heq⟩

theorem putsArrow_closeLabelledArrow : PutsArrow closeLabelledArrow := by
  intro t lexeme y h
  obtain ⟨a, -, hwritten, -⟩ := closeLabelledArrow_eq_some_iff.1 h
  obtain ⟨z, d, -, hz⟩ := a.exists_written_eq
  refine ⟨z ++ d :: Text.ofString " -", List.append_cancel_right (hwritten.symm.trans ?_)⟩
  rw [hz]
  simp [Text.ofString]

/-- Cleaned code has no long arrow with a gap before its head. -/
theorem search_splitLongArrow_clean (t : Text) : splitLongArrow.search (clean t) = none := by
  rw [search_eq_none_iff_replacements headed_splitLongArrow.toSteady]
  have hlong := headed_splitLongArrow.replacements_substitute_self
    putsArrow_splitLongArrow.read_splitLongArrow (breakLines t)
  have hshort := headed_splitShortArrow.replacements_substitute_eq_nil headed_splitLongArrow
    putsArrow_splitShortArrow.read_splitLongArrow hlong
  exact headed_closeLabelledArrow.replacements_substitute_eq_nil headed_splitLongArrow
    putsArrow_closeLabelledArrow.read_splitLongArrow hshort

/-- A labelled arrow that is still met in cleaned code differs from its written form in the gap behind
its opening dashes alone. -/
theorem written_eq_text_of_mem {t : Text} {a : LabelledArrow}
    (h : (a.text, a.written) ∈ replacements closeLabelledArrow (clean t)) :
    a.written = a.text ↔ a.opening = Text.ofString " " := by
  obtain ⟨-, s, lexeme, x, v, hput, hsuffix⟩ :=
    headed_closeLabelledArrow.exists_of_mem_replacements_substitute h
  obtain ⟨b, -, rfl, -⟩ := closeLabelledArrow_eq_some_iff.1 hput
  obtain ⟨z, d, hd, hz⟩ := b.exists_written_eq
  have hend : d :: Text.ofString " -->" <:+ v ++ b.written := ⟨v ++ z, by rw [hz, List.append_assoc]⟩
  have hlen : (d :: Text.ofString " -->").length ≤ a.text.length := by
    have hopening := List.length_pos_iff.2 a.isGapRun.ne_nil
    have hclosing := List.length_pos_iff.2 a.closing.isGapRun.ne_nil
    simp [LabelledArrow.text_eq, LabelledArrow.label, Closing.text, Closing.body, Text.ofString]
    omega
  obtain ⟨z', hz'⟩ := List.suffix_of_suffix_length_le hend hsuffix hlen
  exact a.written_eq_text_iff hd hz'.symm

/-- Cleaning leaves cleaned code as it is exactly if no line-break tag and no short arrow with a gap
has come up in it, and a single space is the opening gap of all its labelled arrows. -/
theorem clean_clean_eq_iff (t : Text) :
    clean (clean t) = clean t ↔
      breakTag.search (clean t) = none ∧ splitShortArrow.search (clean t) = none ∧
        ∀ a : LabelledArrow, (a.text, a.written) ∈ replacements closeLabelledArrow (clean t) →
          a.opening = Text.ofString " " := by
  rw [clean_eq_self_iff]
  constructor
  · intro h
    obtain ⟨htag, -, hshort, hlabel⟩ := h
    exact ⟨htag, hshort, fun a ha => (written_eq_text_of_mem ha).1 (hlabel _ ha)⟩
  · intro h
    obtain ⟨htag, hshort, hlabel⟩ := h
    refine ⟨htag, search_splitLongArrow_clean t, hshort, fun result hmem => ?_⟩
    have hread := (headed_closeLabelledArrow.exists_of_mem_replacements_substitute hmem).1
    obtain ⟨a, htext, hwritten, -⟩ := closeLabelledArrow_eq_some_iff.1 hread
    obtain rfl : (a.text, a.written) = result := Prod.ext htext hwritten
    exact (written_eq_text_of_mem hmem).2 (hlabel a hmem)

/-- The first pass leaves a short arrow with a gap, which the second closes up. -/
theorem clean_clean_ne_spaced_dashes :
    clean (clean (Text.ofString "- - ->")) ≠ clean (Text.ofString "- - ->") := by
  decide +kernel

/-- A tag around a tag is whole only once the inner one is gone. -/
example : breakTag.search (clean (Text.ofString "<br<br>>")) = some (Text.ofString "<br\n>") := by
  decide +kernel

/-- Once the padding inside it is gone, the label is short enough to be read. -/
example : splitShortArrow.search (clean (Text.ofString "--  " ++
    List.replicate 115 (CodePoint.ofChar 'a') ++ Text.ofString "--        x        -->")) = none ∧
    clean (clean (Text.ofString "--  " ++ List.replicate 115 (CodePoint.ofChar 'a') ++
      Text.ofString "--        x        -->")) =
      Text.ofString "-- " ++ List.replicate 115 (CodePoint.ofChar 'a') ++
        Text.ofString "-- x -->" := by
  decide +kernel

end FlowDiagram.Code
