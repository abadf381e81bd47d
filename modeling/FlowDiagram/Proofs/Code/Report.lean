import FlowDiagram.Proofs.Code.Cleaning

/-!
# What cleaning repairs and what is reported

The first two steps of cleaning make the code shorter wherever they find a line-break tag or an
arrow with a gap inside, so what they change is what they find. Every such tag is reported as
markup. Of the arrows only those are reported whose head stands behind a dash and one space: a short
arrow with a gap, or a long one with a wider gap or a tab, is repaired but not reported.
-/

namespace FlowDiagram.Code
open FlowDiagram.Text FlowDiagram.Text.Scanner

/-! ### What the first steps change -/

theorem length_breakLines (code : Text) :
    (breakLines code).length + (if breakTag.search code = none then 0 else 1) ≤ code.length := by
  refine length_substitute ?_ code
  intro t lexeme rest hread
  obtain ⟨b, r, blanks, slash, -, -, -, -, rfl, -⟩ := exists_of_read_breakTag hread
  simp [Text.ofString]

/-- The lexemes of the scanner are the runs of gaps between two fixed pieces. -/
def ReadsGap (s : Scanner) (l r : Text) : Prop :=
  ∀ {t lexeme rest}, s.read t = some (lexeme, rest) ↔
    ∃ gap, IsGapRun gap ∧ lexeme = l ++ gap ++ r ∧ t = lexeme ++ rest

theorem readsGap_splitLongArrow : ReadsGap splitLongArrow "--" ">" :=
  read_splitLongArrow_eq_some_iff

theorem readsGap_splitShortArrow : ReadsGap splitShortArrow "-" "->" :=
  read_splitShortArrow_eq_some_iff

section
variable {s : Scanner} {l r : Text} (h : ReadsGap s l r)
include h

theorem ReadsGap.length_substitute {replacement : Text}
    (hlen : replacement.length ≤ l.length + r.length) (code : Text) :
    (substitute (s.replaceBy replacement) code).length + (if s.search code = none then 0 else 1) ≤
      code.length := by
  refine Scanner.length_substitute ?_ code
  intro t lexeme rest hread
  obtain ⟨gap, hgap, rfl, -⟩ := h.1 hread
  have hpos : 0 < gap.length := List.length_pos_iff.2 hgap.ne_nil
  rw [List.length_append, List.length_append]
  omega

theorem ReadsGap.search_ne_none_iff {code : Text} :
    s.search code ≠ none ↔ ∃ gap, IsGapRun gap ∧ l ++ gap ++ r <:+: code := by
  rw [Scanner.search_ne_none_iff]
  constructor
  · intro hfound
    obtain ⟨before, lexeme, rest, rfl, hread⟩ := hfound
    obtain ⟨gap, hgap, rfl, -⟩ := h.1 hread
    exact ⟨gap, hgap, before, rest, by simp⟩
  · intro hin
    obtain ⟨gap, hgap, before, rest, rfl⟩ := hin
    exact ⟨before, _, rest, by simp, h.2 ⟨gap, hgap, rfl, rfl⟩⟩

end

/-- Nothing that a step writes makes up for what another takes away. -/
theorem closeArrows_breakLines_eq_self_iff {code : Text} :
    closeArrows (breakLines code) = code ↔
      breakTag.search code = none ∧ splitLongArrow.search code = none ∧
        splitShortArrow.search code = none := by
  constructor
  · intro heq
    have hlongLength : (Text.ofString "-->").length ≤ 2 + 1 := by decide
    have hshortLength : (Text.ofString "->").length ≤ 1 + 2 := by decide
    have htags := length_breakLines code
    have hlong := readsGap_splitLongArrow.length_substitute hlongLength (breakLines code)
    have hshort := readsGap_splitShortArrow.length_substitute hshortLength
      (substitute (splitLongArrow.replaceBy "-->") (breakLines code))
    have hlen := congrArg List.length heq
    rw [closeArrows] at hlen
    have hbreak : breakTag.search code = none := by
      by_contra hfound
      rw [if_neg hfound] at htags
      omega
    have hlines : breakLines code = code := substitute_eq_self_of_search hbreak
    rw [hlines] at hlong hshort hlen
    have hnoLong : splitLongArrow.search code = none := by
      by_contra hfound
      rw [if_neg hfound] at hlong
      omega
    rw [substitute_eq_self_of_search hnoLong] at hshort hlen
    refine ⟨hbreak, hnoLong, ?_⟩
    by_contra hfound
    rw [if_neg hfound] at hshort
    omega
  · intro h
    obtain ⟨hbreak, hlong, hshort⟩ := h
    rw [breakLines, substitute_eq_self_of_search hbreak, closeArrows,
      substitute_eq_self_of_search hlong, substitute_eq_self_of_search hshort]

/-! ### What is reported -/

theorem has_prohibitedMarkup_of_breakTag {t : Text} (h : breakTag.search (unfence t) ≠ none)
    (minLength : Int) : (validate minLength (some t)).has .prohibitedMarkup = true := by
  obtain ⟨before, lexeme, rest, hcode, hread⟩ := search_ne_none_iff.1 h
  obtain ⟨b, r, blanks, slash, hb, hr, hblanks, hslash, rfl, -⟩ := exists_of_read_breakTag hread
  have hopening : CodePoint.ofChar '<' ∈ unfence t := by
    rw [hcode]
    simp
  have hkind : (.prohibitedMarkup, markupRule) ∈ kindedRules minLength := by simp [kindedRules]
  have hshape : unfence t = before ++ ([CodePoint.ofChar '<', b, r] ++
      (blanks ++ slash ++ CodePoint.ofChar '>' :: rest)) := by
    rw [hcode]
    simp [Text.ofString]
  rw [validate_of_mem_unfence hopening (by decide), has_judge_iff hkind]
  exact markupRule_ne_none_of_tag hb hr hblanks hslash hshape

theorem has_brokenArrowSyntax_iff {t : Text} {minLength : Int} :
    (validate minLength (some t)).has .brokenArrowSyntax = true ↔
      Text.ofString "- >" <:+: unfence t := by
  have hkind : (.brokenArrowSyntax, arrowRule) ∈ kindedRules minLength := by simp [kindedRules]
  rw [has_validate_iff hkind rfl, ne_eq, arrowRule_eq_none_iff, not_not]

/-! ### Arrows with a gap inside -/

/-- Of the long arrows only the one with a single space holds the head that is reported. -/
theorem IsGapRun.infix_long_iff {gap : Text} (h : IsGapRun gap) :
    Text.ofString "- >" <:+: "--" ++ gap ++ ">" ↔ gap = Text.ofString " " := by
  have hhead : CodePoint.ofChar '>' ∉ Text.ofString "--" ++ gap := by
    intro hmem
    rcases List.mem_append.1 hmem with hmem | hmem
    · exact absurd hmem (by decide)
    · exact absurd (h.chars _ hmem) (by decide)
  have hcut : Text.ofString "- >" <:+: "--" ++ gap ++ ">" ↔
      Text.ofString "- " <:+ "--" ++ gap :=
    infix_concat_iff (x := Text.ofString "- ") hhead
  rw [hcut]
  constructor
  · intro hends
    obtain ⟨s, hs⟩ := hends
    obtain ⟨u, c, rfl, -⟩ := h.exists_eq_append
    have hcut : (s ++ Text.ofString "-") ++ [CodePoint.ofChar ' '] =
        (Text.ofString "--" ++ u) ++ [c] := by
      simpa [Text.ofString] using hs
    obtain ⟨hfront, hc⟩ := List.append_inj' hcut rfl
    obtain rfl : CodePoint.ofChar ' ' = c := (List.cons.inj hc).1
    -- A gap before the space would stand where the dash is.
    by_cases hu : u = []
    · rw [hu]
      rfl
    · have hrun : IsGapRun u := ⟨hu, fun d hd => h.chars d (List.mem_append_left _ hd)⟩
      exact absurd hfront.symm (hrun.append_ne _ _)
  · intro hgap
    rw [hgap]
    exact ⟨"-", rfl⟩

theorem IsGapRun.not_infix_short {gap : Text} (h : IsGapRun gap) :
    ¬ Text.ofString "- >" <:+: "-" ++ gap ++ "->" := by
  have hhead : CodePoint.ofChar '>' ∉ Text.ofString "-" ++ gap ++ Text.ofString "-" := by
    intro hmem
    rcases List.mem_append.1 hmem with hmem | hmem
    · rcases List.mem_append.1 hmem with hmem | hmem
      · exact absurd hmem (by decide)
      · exact absurd (h.chars _ hmem) (by decide)
    · exact absurd hmem (by decide)
  have hcut : Text.ofString "- >" <:+: "-" ++ gap ++ "->" ↔
      Text.ofString "- " <:+ "-" ++ gap ++ "-" := by
    have hconcat := infix_concat_iff (x := Text.ofString "- ") hhead
    simpa [Text.ofString] using hconcat
  rw [hcut]
  intro hends
  obtain ⟨s, hs⟩ := hends
  have hcutEnd : (s ++ Text.ofString "-") ++ [CodePoint.ofChar ' '] =
      (Text.ofString "-" ++ gap) ++ [CodePoint.ofChar '-'] := by
    simpa [Text.ofString] using hs
  exact absurd (List.append_inj' hcutEnd rfl).2 (by decide)

/-! ### The two together -/

/-- Cleaning and the verdict agree on line-break tags. On arrows they agree where the gap is one
space in a long arrow; an arrow with any other gap is repaired and not itself reported. -/
theorem reported_of_repaired (minLength : Int) (t : Text) :
    (closeArrows (breakLines (unfence t)) ≠ unfence t ↔
        breakTag.search (unfence t) ≠ none ∨
          (∃ gap, IsGapRun gap ∧ Text.ofString "--" ++ gap ++ Text.ofString ">" <:+: unfence t) ∨
            ∃ gap, IsGapRun gap ∧
              Text.ofString "-" ++ gap ++ Text.ofString "->" <:+: unfence t) ∧
      (breakTag.search (unfence t) ≠ none →
        (validate minLength (some t)).has .prohibitedMarkup = true) ∧
      ((validate minLength (some t)).has .brokenArrowSyntax = true ↔
        Text.ofString "- >" <:+: unfence t) ∧
      ∀ gap, IsGapRun gap →
        (Text.ofString "- >" <:+: "--" ++ gap ++ ">" ↔ gap = Text.ofString " ") ∧
          ¬ Text.ofString "- >" <:+: "-" ++ gap ++ "->" := by
  refine ⟨?_, fun hfound => has_prohibitedMarkup_of_breakTag hfound minLength,
    has_brokenArrowSyntax_iff, fun gap hgap => ⟨hgap.infix_long_iff, hgap.not_infix_short⟩⟩
  rw [← readsGap_splitLongArrow.search_ne_none_iff, ← readsGap_splitShortArrow.search_ne_none_iff,
    ne_eq, closeArrows_breakLines_eq_self_iff, not_and_or, not_and_or]

/-- In one text a tag and a long arrow with a space are repaired, and both are reported. -/
theorem reported_of_repaired_tag_and_arrow :
    closeArrows (breakLines (Text.ofString "graph TD<BR />a -- > b")) =
        "graph TD\na --> b" ∧
      (validate 15 (some "```mermaid\ngraph TD<BR />a -- > b\n```")).has .prohibitedMarkup = true ∧
      (validate 15 (some "```mermaid\ngraph TD<BR />a -- > b\n```")).has .brokenArrowSyntax =
        true := by
  obtain ⟨-, htag, harrow, -⟩ :=
    reported_of_repaired 15 "```mermaid\ngraph TD<BR />a -- > b\n```"
  refine ⟨by decide +kernel, htag (by decide +kernel), harrow.2 ?_⟩
  rw [← occurs_iff]
  decide +kernel

/-- Two arrows that cleaning repairs stand in code that is valid as it is. -/
theorem isValid_of_repaired_arrows :
    (validate 15 (some "graph TD\n    a[Start] - -> b")).isValid = true ∧
      closeArrows (breakLines (unfence "graph TD\n    a[Start] - -> b")) =
        "graph TD\n    a[Start] -> b" ∧
      (validate 15 (some "graph TD\n    a[Start] --\t> b")).isValid = true ∧
      closeArrows (breakLines (unfence "graph TD\n    a[Start] --\t> b")) =
        "graph TD\n    a[Start] --> b" := by
  decide +kernel

end FlowDiagram.Code
