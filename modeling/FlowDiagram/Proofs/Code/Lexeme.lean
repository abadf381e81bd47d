import FlowDiagram.Code.Cleaning
import FlowDiagram.Proofs.Text.Class
import FlowDiagram.Proofs.Text.Scanner

/-!
# The lexemes of cleaning

What each lexeme looks like that cleaning replaces. All of them end at the head of an arrow or of a
tag, and none but a line-break tag holds a line feed.
-/

namespace FlowDiagram.Code
open FlowDiagram.Text FlowDiagram.Text.Scanner

/-! ### Gaps -/

/-- A run of spaces and tabs that is not empty. -/
structure IsGapRun (t : Text) : Prop where
  ne_nil : t ≠ []
  chars : ∀ c ∈ t, isGap c = true

theorem IsGapRun.exists_eq_append {t : Text} (h : IsGapRun t) :
    ∃ u c, t = u ++ [c] ∧ isGap c = true := by
  refine ⟨t.dropLast, t.getLast h.ne_nil, (List.dropLast_append_getLast h.ne_nil).symm, ?_⟩
  exact h.chars _ (List.getLast_mem h.ne_nil)

theorem notMem_of_gaps {c : CodePoint} {t : Text} (hc : isGap c = false)
    (h : ∀ d ∈ t, isGap d = true) : c ∉ t := by
  intro hmem
  rw [h c hmem] at hc
  exact absurd hc (by decide)

theorem IsGapRun.lineFeed_notMem {gap : Text} (h : IsGapRun gap) :
    CodePoint.ofChar '\n' ∉ gap :=
  notMem_of_gaps (by decide) h.chars

theorem IsGapRun.head_notMem {gap : Text} (h : IsGapRun gap) : CodePoint.ofChar '>' ∉ gap :=
  notMem_of_gaps (by decide) h.chars

theorem IsGapRun.dash_notMem {gap : Text} (h : IsGapRun gap) : CodePoint.ofChar '-' ∉ gap :=
  notMem_of_gaps (by decide) h.chars

/-- What ends in a gap does not end in a dash. -/
theorem IsGapRun.append_ne {gap : Text} (h : IsGapRun gap) (s t : Text) :
    s ++ gap ≠ t ++ Text.ofString "-" := by
  obtain ⟨u, c, rfl, hc⟩ := h.exists_eq_append
  intro heq
  rw [← List.append_assoc] at heq
  obtain rfl : c = CodePoint.ofChar '-' := (List.cons.inj (List.append_inj' heq rfl).2).1
  exact absurd hc (by decide)

/-! ### Arrows with gaps inside -/

theorem read_splitLongArrow_eq_some_iff {t lexeme rest : Text} :
    splitLongArrow.read t = some (lexeme, rest) ↔
      ∃ gap, IsGapRun gap ∧ lexeme = "--" ++ gap ++ ">" ∧ t = lexeme ++ rest := by
  have hhead : isGap '>' = false := by decide
  simp only [splitLongArrow, read_seq_eq_some_iff, read_literal_eq_some_iff,
    read_atLeast_eq_some_iff, read_char_eq_some_iff]
  constructor
  · intro hread
    obtain ⟨_, _, _, ⟨_, _, gap, ⟨rfl, rfl⟩, ⟨rfl, hall, -, hlen⟩, rfl⟩, ⟨rfl, rfl⟩, rfl⟩ := hread
    exact ⟨gap, ⟨List.length_pos_iff.1 hlen, hall⟩, rfl, by simp [Text.ofString]⟩
  · intro hform
    obtain ⟨gap, hgap, rfl, rfl⟩ := hform
    refine ⟨"--" ++ gap, ('>' : CodePoint) :: rest, _, ⟨_, gap ++ ('>' : CodePoint) :: rest, gap,
      ⟨rfl, by simp [Text.ofString]⟩, ⟨rfl, hgap.chars, stops_cons.2 hhead, ?_⟩, rfl⟩,
      ⟨rfl, rfl⟩, rfl⟩
    exact List.length_pos_iff.2 hgap.ne_nil

theorem read_splitShortArrow_eq_some_iff {t lexeme rest : Text} :
    splitShortArrow.read t = some (lexeme, rest) ↔
      ∃ gap, IsGapRun gap ∧ lexeme = "-" ++ gap ++ "->" ∧ t = lexeme ++ rest := by
  have hdash : isGap '-' = false := by decide
  simp only [splitShortArrow, read_seq_eq_some_iff, read_literal_eq_some_iff,
    read_atLeast_eq_some_iff, read_char_eq_some_iff]
  constructor
  · intro hread
    obtain ⟨_, _, _, ⟨_, _, gap, ⟨rfl, rfl⟩, ⟨rfl, hall, -, hlen⟩, rfl⟩, ⟨rfl, rfl⟩, rfl⟩ := hread
    exact ⟨gap, ⟨List.length_pos_iff.1 hlen, hall⟩, rfl, by simp [Text.ofString]⟩
  · intro hform
    obtain ⟨gap, hgap, rfl, rfl⟩ := hform
    refine ⟨"-" ++ gap, "->" ++ rest, _, ⟨_, gap ++ (Text.ofString "->" ++ rest), gap,
      ⟨rfl, by simp [Text.ofString]⟩, ⟨rfl, hgap.chars, stops_cons.2 hdash, ?_⟩, rfl⟩,
      ⟨rfl, rfl⟩, rfl⟩
    exact List.length_pos_iff.2 hgap.ne_nil

/-! ### Labelled arrows -/

theorem exists_of_read_labelOpening {t lexeme rest : Text}
    (h : labelOpening.read t = some (lexeme, rest)) :
    ∃ gap, IsGapRun gap ∧ lexeme = "--" ++ gap ∧ t = lexeme ++ rest := by
  simp only [labelOpening, read_seq_eq_some_iff, read_literal_eq_some_iff,
    read_between_eq_some_iff] at h
  obtain ⟨_, _, gap, ⟨rfl, rfl⟩, ⟨rfl, hall, hlen, -⟩, rfl⟩ := h
  exact ⟨gap, ⟨List.length_pos_iff.1 hlen, hall⟩, rfl, by simp⟩

/-- What closes a labelled arrow starts with a gap and holds one or two dashes. -/
theorem exists_of_read_labelClosing {t lexeme rest : Text}
    (h : labelClosing.read t = some (lexeme, rest)) :
    ∃ gap dashes inner, IsGapRun gap ∧ (dashes = Text.ofString "-" ∨ dashes = Text.ofString "--") ∧
      (∀ c ∈ inner, isGap c = true) ∧ lexeme = gap ++ dashes ++ inner ++ ">" ∧
      t = lexeme ++ rest := by
  have happend := labelClosing.append_of_read h
  simp only [labelClosing, read_seq_eq_some_iff, read_between_eq_some_iff, read_char_eq_some_iff,
    read_optional_eq_some_iff] at h
  obtain ⟨_, _, _, ⟨_, _, inner, ⟨_, _, second, ⟨gap, _, _, ⟨-, hgap, hlen, -⟩, ⟨rfl, -⟩, rfl⟩,
    hsecond, rfl⟩, ⟨-, hinner, -⟩, rfl⟩, ⟨rfl, -⟩, rfl⟩ := h
  have hrun : IsGapRun gap := ⟨List.length_pos_iff.1 hlen, hgap⟩
  rcases hsecond with ⟨rfl, -⟩ | ⟨rfl, -⟩
  · exact ⟨gap, "--", inner, hrun, Or.inr rfl, hinner, by simp [Text.ofString], happend.symm⟩
  · exact ⟨gap, "-", inner, hrun, Or.inl rfl, hinner, by simp [Text.ofString], happend.symm⟩

/-- The label goes up to what closes it, within its line. -/
theorem exists_of_restOfLabel? {most : Nat} {t label closing : Text}
    (h : restOfLabel? most t = some (label, closing)) :
    ∃ rest, t = label ++ closing ++ rest ∧
      labelClosing.read (closing ++ rest) = some (closing, rest) ∧
      ∀ c ∈ label, c ≠ CodePoint.ofChar '\n' ∧ c ≠ CodePoint.ofChar '>' := by
  fun_induction restOfLabel? most t generalizing label with
  | case1 most t lexeme rest hread =>
    obtain ⟨rfl, rfl⟩ := Prod.mk.inj (Option.some.inj h)
    have happend := labelClosing.append_of_read hread
    exact ⟨rest, by simp [happend], by rw [happend, hread], by simp⟩
  | case2 => simp at h
  | case3 => simp at h
  | case4 => simp at h
  | case5 most c t hchar hread ih =>
    obtain ⟨⟨l, k⟩, hl, hpair⟩ := Option.map_eq_some_iff.1 h
    obtain ⟨rfl, rfl⟩ := Prod.mk.inj hpair
    obtain ⟨rest, rfl, hclosing, hall⟩ := ih hl
    refine ⟨rest, rfl, hclosing, ?_⟩
    intro d hd
    rcases List.mem_cons.1 hd with rfl | hd
    · simpa using hchar
    · exact hall d hd

theorem startsLabel_iff {c : CodePoint} :
    startsLabel c = true ↔ isBlank c = false ∧ c ≠ '>' ∧ c ≠ '-' := by
  simp [startsLabel, and_assoc]

theorem exists_of_closeLabelledArrow {t lexeme replacement : Text}
    (h : closeLabelledArrow t = some (lexeme, replacement)) :
    ∃ gap first label closing rest, IsGapRun gap ∧ startsLabel first = true ∧
      labelClosing.read (closing ++ rest) = some (closing, rest) ∧
      (∀ c ∈ label, c ≠ CodePoint.ofChar '\n' ∧ c ≠ CodePoint.ofChar '>') ∧
      lexeme = "--" ++ gap ++ first :: label ++ closing ∧
      replacement = "-- " ++ trim (first :: label) ++ " -->" ∧ t = lexeme ++ rest := by
  unfold closeLabelledArrow at h
  split at h
  · rename_i opening first after hopening
    split at h
    · rename_i hfirst
      obtain ⟨⟨label, closing⟩, hrest, hpair⟩ := Option.map_eq_some_iff.1 h
      obtain ⟨rfl, rfl⟩ := Prod.mk.inj hpair
      obtain ⟨gap, hgap, rfl, rfl⟩ := exists_of_read_labelOpening hopening
      obtain ⟨rest, rfl, hclosing, hlabel⟩ := exists_of_restOfLabel? hrest
      exact ⟨gap, first, label, closing, rest, hgap, hfirst, hclosing, hlabel, rfl, rfl, by simp⟩
    · simp at h
  · simp at h

/-! ### Line-break tags -/

theorem exists_of_read_breakTag {t lexeme rest : Text}
    (h : breakTag.read t = some (lexeme, rest)) :
    ∃ b r blanks slash, (b = CodePoint.ofChar 'b' ∨ b = CodePoint.ofChar 'B') ∧
      (r = CodePoint.ofChar 'r' ∨ r = CodePoint.ofChar 'R') ∧ (∀ c ∈ blanks, isBlank c = true) ∧
      (slash = Text.ofString "/" ∨ slash = []) ∧
      lexeme = ('<' : CodePoint) :: b :: r :: (blanks ++ slash ++ ">") ∧ t = lexeme ++ rest := by
  have happend := breakTag.append_of_read h
  simp only [breakTag, read_seq_eq_some_iff, read_atLeast_eq_some_iff, read_one_eq_some_iff,
    read_char_eq_some_iff, read_optional_eq_some_iff, Bool.or_eq_true, beq_iff_eq] at h
  obtain ⟨_, _, _, ⟨_, _, slash, ⟨_, _, blanks, ⟨_, _, _, ⟨_, _, _, ⟨rfl, -⟩, ⟨b, hb, rfl, -⟩, rfl⟩,
    ⟨r, hr, rfl, -⟩, rfl⟩, ⟨-, hblanks, -⟩, rfl⟩, hslash, rfl⟩, ⟨rfl, -⟩, rfl⟩ := h
  refine ⟨b, r, blanks, slash, hb, hr, hblanks, ?_, by simp [Text.ofString], happend.symm⟩
  exact hslash.imp And.left And.left

theorem breakLines_of_notMem {t : Text} (h : CodePoint.ofChar '<' ∉ t) : breakLines t = t := by
  refine Scanner.substitute_eq_self fun u lexeme rest hu hread => ?_
  obtain ⟨b, r, blanks, slash, -, -, -, -, rfl, rfl⟩ := exists_of_read_breakTag hread
  exact h (hu.subset (by simp))

end FlowDiagram.Code
