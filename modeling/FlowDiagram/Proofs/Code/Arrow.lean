import FlowDiagram.Proofs.Code.Stability

/-!
# Broken arrows

Generated code breaks arrows by gaps inside them. Cleaned code has no long arrow with a gap before
its head, so that only the shorter of the two broken arrows can be reported in it. A labelled arrow
comes out in its written form whichever way its head is broken: the first steps bring every head
into a form in which it closes the label.
-/

namespace FlowDiagram.Code
open FlowDiagram.Text FlowDiagram.Text.Scanner

/-! ### Long arrows with a gap -/

/-- Code without the longer of the broken arrows can only hold the shorter. -/
theorem eq_of_arrowRule {code : Text} {issue : Issue} (hlong : ¬ Text.ofString "-- >" <:+: code)
    (h : arrowRule code = some issue) : issue = .brokenArrowSyntax ["- >"] := by
  have hnone : occurs (Text.ofString "-- >") code = false := by
    rw [← Bool.not_eq_true, occurs_iff]
    exact hlong
  cases hshort : occurs (Text.ofString "- >") code with
  | true => simpa [arrowRule, brokenArrows, hnone, hshort, eq_comm] using h
  | false => simp [arrowRule, brokenArrows, hnone, hshort] at h

theorem not_infix_clean {gap : Text} (hgap : IsGapRun gap) (t : Text) :
    ¬ Text.ofString "--" ++ gap ++ Text.ofString ">" <:+: clean t := by
  intro hin
  have hfound := readsGap_splitLongArrow.search_ne_none_iff.2 ⟨gap, hgap, hin⟩
  exact hfound (search_splitLongArrow_clean t)

/-- No long arrow with a gap before its head is left in cleaned code, so that the report on arrows
names the shorter broken arrow alone. -/
theorem no_long_gap_clean (t : Text) :
    (∀ gap, IsGapRun gap → ¬ Text.ofString "--" ++ gap ++ Text.ofString ">" <:+: clean t) ∧
      ∀ s : Settings, ∀ issue ∈ (cleanThenValidate s (some t)).2.issues,
        issue.kind = .brokenArrowSyntax → issue.detail? = some "'- >'" := by
  refine ⟨fun gap hgap => not_infix_clean hgap t, fun s issue hissue hkind => ?_⟩
  have hrule : (.brokenArrowSyntax, arrowRule) ∈ kindedRules s.minLength := by simp [kindedRules]
  have hfound : arrowRule (unfence (clean t)) = some issue :=
    eq_some_of_mem_validate hrule hissue hkind
  have hspace : IsGapRun " " := ⟨by decide, by decide⟩
  have hlong : ¬ Text.ofString "-- >" <:+: unfence (clean t) :=
    fun hin => not_infix_clean hspace t (hin.trans (infix_unfence (clean t)))
  rw [eq_of_arrowRule hlong hfound]
  decide +kernel

/-- A short arrow with a gap before its head is left as it is, and reported. -/
example : (cleanThenValidate Settings.standard (some "graph TD\n    a[b] - > c")).2.issues =
    [.brokenArrowSyntax ["- >"]] := by
  decide +kernel

/-! ### Gaps that are closed up -/

section
variable {scanner : Scanner} {l r b x gap : Text}

/-- Behind a dash a gap is all that follows the last dash. -/
theorem IsGapRun.append_dash_inj (hgap : IsGapRun gap) (hb : CodePoint.ofChar '-' ∉ b)
    (h : x ++ Text.ofString "-" ++ b = l ++ Text.ofString "-" ++ gap) : x = l ∧ b = gap :=
  append_last_inj hb hgap.dash_notMem (by simpa [Text.ofString] using h)

/-- A gap is taken out of the part that ends in it. -/
theorem ReadsGap.substitute_part {new : Text}
    (h : ReadsGap scanner (l ++ Text.ofString "-") (r ++ [CodePoint.ofChar '>']))
    (hr : Headed (scanner.replaceBy new) '>') (hnew : new = b ++ [CodePoint.ofChar '>'])
    (hx : CodePoint.ofChar '>' ∉ x ++ (l ++ Text.ofString "-" ++ gap ++ r)) (hgap : IsGapRun gap)
    (t : Text) :
    substitute (scanner.replaceBy new)
        (x ++ (l ++ Text.ofString "-" ++ gap ++ r) ++ CodePoint.ofChar '>' :: t) =
      x ++ b ++ CodePoint.ofChar '>' :: substitute (scanner.replaceBy new) t := by
  have hform : l ++ Text.ofString "-" ++ gap ++ (r ++ [CodePoint.ofChar '>']) =
      (l ++ Text.ofString "-" ++ gap ++ r) ++ [CodePoint.ofChar '>'] :=
    (List.append_assoc _ _ _).symm
  have hlexeme : scanner.replaceBy new
      ((l ++ Text.ofString "-" ++ gap ++ r) ++ [CodePoint.ofChar '>']) = some (_, _) :=
    replaceBy_eq_some_iff.2 ⟨rfl, [], h.2 ⟨gap, hgap, hform.symm, (List.append_nil _).symm⟩⟩
  rcases hr.part_cases hx with ⟨hnone, -, -⟩ | ⟨p, u, y, hsplit, -, hread, hsubst, -⟩
  · rw [hnone _ (List.suffix_append x _)] at hlexeme
    exact absurd hlexeme (by simp)
  · obtain ⟨hy, rest, hscan⟩ := replaceBy_eq_some_iff.1 hread
    obtain rfl : y = b := List.append_cancel_right (hy.trans hnew)
    obtain ⟨gap', hgap', hother, -⟩ := h.1 hscan
    obtain rfl : u = l ++ Text.ofString "-" ++ gap' ++ r :=
      List.append_cancel_right (hother.trans (List.append_assoc _ _ _).symm)
    -- Both gaps end where the last dash before them stands.
    have hpart : (x ++ (l ++ Text.ofString "-" ++ gap)) ++ r =
        (p ++ (l ++ Text.ofString "-" ++ gap')) ++ r := by
      simpa using hsplit
    have hcut : (x ++ l) ++ Text.ofString "-" ++ gap = (p ++ l) ++ Text.ofString "-" ++ gap' := by
      simpa using List.append_cancel_right hpart
    obtain ⟨hleft, -⟩ := hgap'.append_dash_inj hgap.dash_notMem hcut
    rw [hsubst, List.append_cancel_right hleft]

/-- A part that does not end in a gap of the scanner stays. -/
theorem ReadsGap.substitute_part_of_ne (h : ReadsGap scanner l (r ++ [CodePoint.ofChar '>']))
    (hr : Headed (scanner.replaceBy b) '>') (hx : CodePoint.ofChar '>' ∉ x)
    (hne : ∀ s gap, IsGapRun gap → x ≠ s ++ (l ++ gap ++ r)) (t : Text) :
    substitute (scanner.replaceBy b) (x ++ CodePoint.ofChar '>' :: t) =
      x ++ CodePoint.ofChar '>' :: substitute (scanner.replaceBy b) t := by
  refine hr.substitute_part_of_none hx (fun u hu => ?_) t
  cases hread : scanner.replaceBy b (u ++ [CodePoint.ofChar '>']) with
  | none => rfl
  | some result =>
    obtain ⟨lexeme, y⟩ := result
    have hlexeme := hr.lexeme_eq (fun hmem => hx (hu.subset hmem)) hread
    obtain ⟨-, rest, hscan⟩ := replaceBy_eq_some_iff.1 hread
    obtain ⟨gap, hgap, hform, -⟩ := h.1 hscan
    rw [hlexeme, ← List.append_assoc] at hform
    obtain ⟨s, hs⟩ := hu
    exact absurd (hs.symm.trans (by rw [List.append_cancel_right hform])) (hne s gap hgap)

end

section
variable {x gap b : Text}

theorem splitLongArrow_part (hx : CodePoint.ofChar '>' ∉ x) (hgap : IsGapRun gap)
    (hb : CodePoint.ofChar '>' ∉ b) :
    substitute (splitLongArrow.replaceBy "-->")
        (x ++ Text.ofString "-" ++ Text.ofString "-" ++ gap ++ CodePoint.ofChar '>' :: b) =
      x ++ Text.ofString "-" ++ Text.ofString "-" ++ CodePoint.ofChar '>' :: b := by
  have hpart := readsGap_splitLongArrow.substitute_part (l := "-") (r := []) (b := "--") (x := x)
    headed_splitLongArrow rfl (by simp [hx, hgap.head_notMem, Text.ofString]) hgap b
  rw [headed_splitLongArrow.substitute_of_notMem hb] at hpart
  simpa [Text.ofString] using hpart

theorem splitLongArrow_part_of_ne (hx : CodePoint.ofChar '>' ∉ x) (hb : CodePoint.ofChar '>' ∉ b)
    (hne : ∀ s gap, IsGapRun gap → x ≠ s ++ (Text.ofString "--" ++ gap)) :
    substitute (splitLongArrow.replaceBy "-->") (x ++ CodePoint.ofChar '>' :: b) =
      x ++ CodePoint.ofChar '>' :: b := by
  have hpart := readsGap_splitLongArrow.substitute_part_of_ne (r := []) headed_splitLongArrow hx
    (fun s gap hgap => by simpa using hne s gap hgap) b
  rwa [headed_splitLongArrow.substitute_of_notMem hb] at hpart

theorem splitShortArrow_part (hx : CodePoint.ofChar '>' ∉ x) (hgap : IsGapRun gap)
    (hb : CodePoint.ofChar '>' ∉ b) :
    substitute (splitShortArrow.replaceBy "->")
        (x ++ Text.ofString "-" ++ gap ++ Text.ofString "-" ++ CodePoint.ofChar '>' :: b) =
      x ++ Text.ofString "-" ++ CodePoint.ofChar '>' :: b := by
  have hpart := readsGap_splitShortArrow.substitute_part (l := []) (r := "-") (b := "-") (x := x)
    headed_splitShortArrow rfl (by simp [hx, hgap.head_notMem, Text.ofString]) hgap b
  rw [headed_splitShortArrow.substitute_of_notMem hb] at hpart
  simpa [Text.ofString] using hpart

theorem splitShortArrow_part_of_ne (hx : CodePoint.ofChar '>' ∉ x) (hb : CodePoint.ofChar '>' ∉ b)
    (hne : ∀ s gap, IsGapRun gap → x ≠ s ++ (Text.ofString "-" ++ gap ++ Text.ofString "-")) :
    substitute (splitShortArrow.replaceBy "->") (x ++ CodePoint.ofChar '>' :: b) =
      x ++ CodePoint.ofChar '>' :: b := by
  have hpart := readsGap_splitShortArrow.substitute_part_of_ne (r := "-") headed_splitShortArrow hx
    hne b
  rwa [headed_splitShortArrow.substitute_of_notMem hb] at hpart

/-- What ends in a dash ends in no gap. -/
theorem splitLongArrow_dash (hx : CodePoint.ofChar '>' ∉ x) (hb : CodePoint.ofChar '>' ∉ b) :
    substitute (splitLongArrow.replaceBy "-->")
        (x ++ Text.ofString "-" ++ CodePoint.ofChar '>' :: b) =
      x ++ Text.ofString "-" ++ CodePoint.ofChar '>' :: b := by
  refine splitLongArrow_part_of_ne (by simpa [Text.ofString] using hx) hb fun s gap hgap h => ?_
  rw [← List.append_assoc] at h
  exact hgap.append_ne _ _ h.symm

/-- Only a gap behind a dash makes two arrows of what ends in a dash. -/
theorem splitShortArrow_dash (hx : CodePoint.ofChar '>' ∉ x) (hb : CodePoint.ofChar '>' ∉ b)
    (hne : ∀ s gap, IsGapRun gap → x ≠ s ++ (Text.ofString "-" ++ gap)) :
    substitute (splitShortArrow.replaceBy "->")
        (x ++ Text.ofString "-" ++ CodePoint.ofChar '>' :: b) =
      x ++ Text.ofString "-" ++ CodePoint.ofChar '>' :: b := by
  refine splitShortArrow_part_of_ne (by simpa [Text.ofString] using hx) hb fun s gap hgap h => ?_
  rw [← List.append_assoc] at h
  exact hne s gap hgap (List.append_cancel_right h)

end

/-! ### Heads -/

/-- A head that generated code gives to a labelled arrow: a short or a long one, or one with a gap
inside. -/
inductive IsHead : Text → Prop
  | long : IsHead "-->"
  | short : IsHead "->"
  | splitLong {gap : Text} (hgap : IsGapRun gap) : IsHead ("--" ++ gap ++ ">")
  | splitShort {gap : Text} (hgap : IsGapRun gap) : IsHead ("-" ++ gap ++ "->")
  | splitDashes {gap : Text} (hgap : IsGapRun gap) : IsHead ("--" ++ gap ++ "->")
  | splitHead {gap : Text} (hgap : IsGapRun gap) (hle : gap.length ≤ 8) :
      IsHead ("-" ++ gap ++ ">")

theorem IsHead.opening_notMem {head : Text} (h : IsHead head) : CodePoint.ofChar '<' ∉ head := by
  have hgaps : isGap '<' = false := by decide
  cases h with
  | long => decide
  | short => decide
  | splitLong hgap => simp [notMem_of_gaps hgaps hgap.chars, Text.ofString]
  | splitShort hgap => simp [notMem_of_gaps hgaps hgap.chars, Text.ofString]
  | splitDashes hgap => simp [notMem_of_gaps hgaps hgap.chars, Text.ofString]
  | splitHead hgap hle => simp [notMem_of_gaps hgaps hgap.chars, Text.ofString]

/-- What stands before the head of a labelled arrow: it ends in a gap, and that gap is not all that
stands behind the last dash. -/
structure IsLead (x : Text) : Prop where
  head_notMem : CodePoint.ofChar '>' ∉ x
  ends : ∃ s gap, IsGapRun gap ∧ x = s ++ gap
  ne : ∀ s gap, IsGapRun gap → x ≠ s ++ (Text.ofString "-" ++ gap)

section
variable {x head b : Text}

theorem IsLead.ne_dash (hx : IsLead x) (s : Text) : x ≠ s ++ Text.ofString "-" := by
  obtain ⟨t, gap, hgap, rfl⟩ := hx.ends
  exact hgap.append_ne t s

/-- Two dashes behind the lead make a whole arrow. -/
theorem IsLead.splitShortArrow_dashes (hx : IsLead x) (hb : CodePoint.ofChar '>' ∉ b) :
    substitute (splitShortArrow.replaceBy "->")
        (x ++ Text.ofString "-" ++ Text.ofString "-" ++ CodePoint.ofChar '>' :: b) =
      x ++ Text.ofString "-" ++ Text.ofString "-" ++ CodePoint.ofChar '>' :: b := by
  have hdashed : CodePoint.ofChar '>' ∉ x ++ Text.ofString "-" := by
    simpa [Text.ofString] using hx.head_notMem
  refine splitShortArrow_dash hdashed hb fun s gap hgap h => ?_
  rw [← List.append_assoc] at h
  exact hgap.append_ne _ _ h.symm

/-- Behind the lead every head is closed up until it can close the label. -/
theorem IsLead.closeArrows_append (hx : IsLead x) (hhead : IsHead head)
    (hb : CodePoint.ofChar '>' ∉ b) :
    ∃ dash inner, (dash = [] ∨ dash = Text.ofString "-") ∧ (∀ c ∈ inner, isGap c = true) ∧
      inner.length ≤ 8 ∧
      closeArrows (x ++ head ++ b) =
        x ++ dash ++ Text.ofString "-" ++ inner ++ CodePoint.ofChar '>' :: b := by
  have hfree := hx.head_notMem
  have hdashed : CodePoint.ofChar '>' ∉ x ++ Text.ofString "-" := by
    simpa [Text.ofString] using hfree
  cases hhead with
  | long =>
    have hform : x ++ Text.ofString "-->" ++ b =
        x ++ Text.ofString "-" ++ Text.ofString "-" ++ CodePoint.ofChar '>' :: b := by
      simp [Text.ofString]
    refine ⟨"-", [], Or.inr rfl, by simp, by simp, ?_⟩
    rw [closeArrows, hform, splitLongArrow_dash hdashed hb, hx.splitShortArrow_dashes hb,
      List.append_nil]
  | short =>
    have hform : x ++ Text.ofString "->" ++ b =
        x ++ Text.ofString "-" ++ CodePoint.ofChar '>' :: b := by
      simp [Text.ofString]
    refine ⟨[], [], Or.inl rfl, by simp, by simp, ?_⟩
    rw [closeArrows, hform, splitLongArrow_dash hfree hb, splitShortArrow_dash hfree hb hx.ne,
      List.append_nil, List.append_nil]
  | @splitLong gap hgap =>
    have hform : x ++ (Text.ofString "--" ++ gap ++ Text.ofString ">") ++ b =
        x ++ Text.ofString "-" ++ Text.ofString "-" ++ gap ++ CodePoint.ofChar '>' :: b := by
      simp [Text.ofString]
    refine ⟨"-", [], Or.inr rfl, by simp, by simp, ?_⟩
    rw [closeArrows, hform, splitLongArrow_part hfree hgap hb, hx.splitShortArrow_dashes hb,
      List.append_nil]
  | @splitShort gap hgap =>
    have hform : x ++ (Text.ofString "-" ++ gap ++ Text.ofString "->") ++ b =
        x ++ Text.ofString "-" ++ gap ++ Text.ofString "-" ++ CodePoint.ofChar '>' :: b := by
      simp [Text.ofString]
    have hlong := splitLongArrow_dash (x := x ++ Text.ofString "-" ++ gap)
      (by simp [hfree, hgap.head_notMem, Text.ofString]) hb
    refine ⟨[], [], Or.inl rfl, by simp, by simp, ?_⟩
    rw [closeArrows, hform, hlong, splitShortArrow_part hfree hgap hb, List.append_nil,
      List.append_nil]
  | @splitDashes gap hgap =>
    have hform : x ++ (Text.ofString "--" ++ gap ++ Text.ofString "->") ++ b =
        x ++ Text.ofString "-" ++ Text.ofString "-" ++ gap ++ Text.ofString "-" ++
          CodePoint.ofChar '>' :: b := by
      simp [Text.ofString]
    have hlong := splitLongArrow_dash (x := x ++ Text.ofString "-" ++ Text.ofString "-" ++ gap)
      (by simp [hfree, hgap.head_notMem, Text.ofString]) hb
    refine ⟨"-", [], Or.inr rfl, by simp, by simp, ?_⟩
    rw [closeArrows, hform, hlong, splitShortArrow_part hdashed hgap hb, List.append_nil]
  | @splitHead gap hgap hle =>
    have hform : x ++ (Text.ofString "-" ++ gap ++ Text.ofString ">") ++ b =
        x ++ Text.ofString "-" ++ gap ++ CodePoint.ofChar '>' :: b := by
      simp [Text.ofString]
    have hgapFree : CodePoint.ofChar '>' ∉ x ++ Text.ofString "-" ++ gap := by
      simpa [hgap.head_notMem] using hdashed
    have hlong := splitLongArrow_part_of_ne hgapFree hb fun s gap' hgap' h => by
      have hcut : x ++ Text.ofString "-" ++ gap =
          (s ++ Text.ofString "-") ++ Text.ofString "-" ++ gap' := by
        simpa [Text.ofString] using h
      exact hx.ne_dash s (hgap'.append_dash_inj hgap.dash_notMem hcut).1
    have hshort := splitShortArrow_part_of_ne hgapFree hb fun s gap' hgap' h => by
      rw [← List.append_assoc s] at h
      exact hgap.append_ne _ _ h
    refine ⟨[], gap, Or.inl rfl, hgap.chars, hle, ?_⟩
    rw [closeArrows, hform, hlong, hshort, List.append_nil]

end

/-! ### Labels -/

/-- A text that takes no part in an arrow or a tag. -/
structure IsBystander (t : Text) : Prop where
  dash : CodePoint.ofChar '-' ∉ t
  opening : CodePoint.ofChar '<' ∉ t
  head : CodePoint.ofChar '>' ∉ t

section
variable {a b label opening gap head : Text}

theorem isLead_labelled (ha : IsBystander a) (hlabel : IsBystander label) (hne : label ≠ [])
    (htrimmed : Trimmed label) (hopening : IsGapRun opening) (hgap : IsGapRun gap) :
    IsLead (a ++ (Text.ofString "--" ++ opening ++ label ++ gap)) where
  head_notMem := by
    simp [ha.head, hlabel.head, hopening.head_notMem, hgap.head_notMem, Text.ofString]
  ends := ⟨a ++ (Text.ofString "--" ++ opening ++ label), gap, hgap, by simp⟩
  ne := by
    intro s gap' hgap' h
    have hcut : (a ++ Text.ofString "-") ++ Text.ofString "-" ++ (opening ++ label ++ gap) =
        s ++ Text.ofString "-" ++ gap' := by
      simpa [Text.ofString] using h
    have hfree : CodePoint.ofChar '-' ∉ opening ++ label ++ gap := by
      simp [hlabel.dash, hopening.dash_notMem, hgap.dash_notMem]
    obtain ⟨-, hgaps⟩ := hgap'.append_dash_inj hfree hcut
    obtain ⟨first, rest, rfl⟩ := List.exists_cons_of_ne_nil hne
    have hfirst : isGap first = false := isGap_of_isBlank (htrimmed.head first rfl)
    have hclass := hgap'.chars first (by rw [← hgaps]; simp)
    rw [hfirst] at hclass
    exact absurd hclass (by decide)

/-- A trimmed label between two gaps makes an arrow with any closing part. -/
theorem exists_labelledArrow (hlabel : IsBystander label) (hne : label ≠ [])
    (htrimmed : Trimmed label) (hlen : label.length ≤ 121)
    (hline : CodePoint.ofChar '\n' ∉ label) (hopening : IsGapRun opening)
    (hle : opening.length ≤ 8) (k : Closing) :
    ∃ arrow : LabelledArrow, arrow.text = Text.ofString "--" ++ opening ++ label ++ k.text ∧
      arrow.written = Text.ofString "-- " ++ label ++ Text.ofString " -->" := by
  obtain ⟨first, rest, rfl⟩ := List.exists_cons_of_ne_nil hne
  have hstarts : startsLabel first = true := by
    refine startsLabel_iff.2 ⟨htrimmed.head first rfl, fun heq => hlabel.head ?_,
      fun heq => hlabel.dash ?_⟩
    · rw [heq]
      exact List.mem_cons_self ..
    · rw [heq]
      exact List.mem_cons_self ..
  have hchars : ∀ c ∈ rest, c ≠ CodePoint.ofChar '\n' ∧ c ≠ CodePoint.ofChar '>' := by
    intro c hc
    have hmem : c ∈ first :: rest := List.mem_cons_of_mem first hc
    exact ⟨fun heq => hline (heq ▸ hmem), fun heq => hlabel.head (heq ▸ hmem)⟩
  have hclosed : k.StartsBehind rest :=
    Or.inr fun c hc => isGap_of_isBlank (htrimmed.last c (List.mem_getLast?_cons hc))
  let arrow : LabelledArrow :=
    ⟨opening, first, rest, k, hopening, hle, hstarts, Nat.le_of_succ_le_succ hlen, hchars, hclosed⟩
  refine ⟨arrow, arrow.text_eq, ?_⟩
  have hwritten : arrow.written =
      Text.ofString "-- " ++ trim (first :: rest) ++ Text.ofString " -->" := rfl
  rw [hwritten, trim_eq_self htrimmed]

/-- An arrow between bystanders is written anew on its own. -/
theorem closeLabelledArrow_between (ha : IsBystander a) (hb : IsBystander b)
    (arrow : LabelledArrow) :
    substitute closeLabelledArrow (a ++ (arrow.text ++ b)) = a ++ (arrow.written ++ b) := by
  have hread : closeLabelledArrow (arrow.text ++ b) = some (arrow.text, arrow.written) :=
    closeLabelledArrow_eq_some_iff.2 ⟨arrow, rfl, rfl, List.prefix_append _ _⟩
  have hskip : substitute closeLabelledArrow (a ++ (arrow.text ++ b)) =
      a ++ substitute closeLabelledArrow (arrow.text ++ b) := by
    refine substitute_append_of_none fun u hne hu => ?_
    cases hother : closeLabelledArrow (u ++ (arrow.text ++ b)) with
    | none => rfl
    | some result =>
      obtain ⟨lexeme, x⟩ := result
      -- An arrow that starts in the first bystander starts with a dash.
      obtain ⟨other, rfl, -, rest, hrest⟩ := closeLabelledArrow_eq_some_iff.1 hother
      obtain ⟨c, u, rfl⟩ := List.exists_cons_of_ne_nil hne
      have hstart : CodePoint.ofChar '-' = c := by
        rw [other.text_eq] at hrest
        exact (List.cons.inj hrest).1
      exact absurd (hu.subset (by rw [hstart]; exact List.mem_cons_self ..)) ha.dash
  rw [hskip, substitute_append_of_some hread (headed_closeLabelledArrow.ne_nil hread),
    headed_closeLabelledArrow.substitute_of_notMem hb.head]

/-- An arrow with a label is repaired whichever way its head is broken and whatever gaps stand
around its label. -/
theorem clean_labelled_arrow (ha : IsBystander a) (hb : IsBystander b) (hlabel : IsBystander label)
    (hne : label ≠ []) (htrimmed : Trimmed label) (hlen : label.length ≤ 121)
    (hline : CodePoint.ofChar '\n' ∉ label) (hopening : IsGapRun opening)
    (hopeningLe : opening.length ≤ 8) (hgap : IsGapRun gap) (hgapLe : gap.length ≤ 8)
    (hhead : IsHead head) :
    clean (a ++ Text.ofString "--" ++ opening ++ label ++ gap ++ head ++ b) =
      a ++ Text.ofString "-- " ++ label ++ Text.ofString " -->" ++ b := by
  have hlead := isLead_labelled ha hlabel hne htrimmed hopening hgap
  obtain ⟨dash, inner, hdash, hinner, hinnerLe, hclosed⟩ := hlead.closeArrows_append hhead hb.head
  let k : Closing := ⟨gap, dash, inner, hgap, hgapLe, hdash, hinner, hinnerLe⟩
  obtain ⟨arrow, htext, hwritten⟩ :=
    exists_labelledArrow hlabel hne htrimmed hlen hline hopening hopeningLe k
  have htags : CodePoint.ofChar '<' ∉
      a ++ (Text.ofString "--" ++ opening ++ label ++ gap) ++ head ++ b := by
    have hgaps : isGap '<' = false := by decide
    simp [ha.opening, hb.opening, hlabel.opening, notMem_of_gaps hgaps hopening.chars,
      notMem_of_gaps hgaps hgap.chars, hhead.opening_notMem, Text.ofString]
  have hform : a ++ Text.ofString "--" ++ opening ++ label ++ gap ++ head ++ b =
      a ++ (Text.ofString "--" ++ opening ++ label ++ gap) ++ head ++ b := by simp
  have harrow : closeArrows (a ++ (Text.ofString "--" ++ opening ++ label ++ gap) ++ head ++ b) =
      a ++ (arrow.text ++ b) := by
    rw [hclosed, htext]
    simp [Closing.text, Closing.body, k, Text.ofString]
  rw [hform, clean, breakLines_of_notMem htags, harrow, closeLabelledArrow_between ha hb, hwritten]
  simp

/-- The gaps inside the label stay. -/
theorem clean_labelled_arrow_tabs :
    clean (Text.ofString "a--\t is\tit  ok?  - \t -> b") =
      Text.ofString "a-- is\tit  ok? --> b" := by
  have ha : IsBystander "a" := ⟨by decide, by decide, by decide⟩
  have hb : IsBystander " b" := ⟨by decide, by decide, by decide⟩
  have hlabel : IsBystander "is\tit  ok?" := ⟨by decide, by decide, by decide⟩
  have hopening : IsGapRun "\t " := ⟨by decide, by decide⟩
  have hgap : IsGapRun "  " := ⟨by decide, by decide⟩
  have hinner : IsGapRun " \t " := ⟨by decide, by decide⟩
  have hcode : Text.ofString "a--\t is\tit  ok?  - \t -> b" =
      "a" ++ "--" ++ "\t " ++ "is\tit  ok?" ++ "  " ++ ("-" ++ " \t " ++ "->") ++ " b" := by
    decide +kernel
  rw [hcode, clean_labelled_arrow ha hb hlabel (by decide) ⟨by decide, by decide⟩ (by decide)
    (by decide) hopening (by decide) hgap (by decide) (.splitShort hinner)]
  decide +kernel

end

end FlowDiagram.Code
