import FlowDiagram.Proofs.Code.Kept
import FlowDiagram.Workflow

/-!
# Cleaning valid code

Each of the three steps that deal with arrows draws some of them anew, and the step that deals with
line-break tags finds none in valid code. So cleaned code breaks no rule that it did not break
before, but for the one on the least length.
-/

namespace FlowDiagram.Code
open FlowDiagram.Text

/-! ### Steps that redraw arrows -/

/-- The replacer draws the arrow anew that it reads. -/
def Redraws (replacer : Replacer) : Prop :=
  ∀ {t lexeme replacement}, replacer t = some (lexeme, replacement) →
    lexeme ≠ [] ∧ ∃ rest, t = lexeme ++ rest ∧
      ∀ u, Redrawn false rest u → Redrawn false t (replacement ++ u)

theorem Redraws.redrawn {replacer : Replacer} (h : Redraws replacer) (t : Text) :
    Redrawn false t (substitute replacer t) := by
  induction hn : t.length using Nat.strong_induction_on generalizing t with
  | _ n ih =>
    cases t with
    | nil => exact Redrawn.nil
    | cons c t =>
      cases hread : replacer (c :: t) with
      | none =>
        rw [substitute_cons_of_none hread]
        exact Redrawn.keep c (ih t.length (by rw [← hn]; simp) t rfl)
      | some result =>
        obtain ⟨lexeme, replacement⟩ := result
        obtain ⟨hne, rest, hrest, hdraw⟩ := h hread
        have hlen : rest.length < n := by
          have hpos := List.length_pos_iff.2 hne
          rw [← hn, hrest, List.length_append]
          omega
        rw [substitute_cons_of_some hread hne]
        refine hdraw _ ?_
        rw [hrest, List.drop_left]
        exact ih rest.length hlen rest rfl

theorem redraws_splitLongArrow : Redraws (splitLongArrow.replaceBy "-->") := by
  intro t lexeme replacement h
  obtain ⟨⟨l, rest⟩, hread, hpair⟩ := Option.map_eq_some_iff.1 h
  obtain ⟨rfl, rfl⟩ := Prod.mk.inj hpair
  obtain ⟨gap, hgap, rfl, rfl⟩ := read_splitLongArrow_eq_some_iff.1 hread
  refine ⟨by simp [Text.ofString], rest, rfl, ?_⟩
  intro u hu
  have hfill := isArrowFill_of_mem_dash_cons fun c hc => isArrowFill_of_isGap (hgap.chars c hc)
  have hdashes : ∀ c ∈ Text.ofString "-", c = CodePoint.ofChar '-' := by decide
  simpa [Text.ofString] using Redrawn.arrow hfill hdashes hu

theorem redraws_splitShortArrow : Redraws (splitShortArrow.replaceBy "->") := by
  intro t lexeme replacement h
  obtain ⟨⟨l, rest⟩, hread, hpair⟩ := Option.map_eq_some_iff.1 h
  obtain ⟨rfl, rfl⟩ := Prod.mk.inj hpair
  obtain ⟨gap, hgap, rfl, rfl⟩ := read_splitShortArrow_eq_some_iff.1 hread
  refine ⟨by simp [Text.ofString], rest, rfl, ?_⟩
  intro u hu
  have hfill : ∀ c ∈ gap ++ Text.ofString "-", isArrowFill c = true := by
    intro c hc
    rcases List.mem_append.1 hc with hc | hc
    · exact isArrowFill_of_isGap (hgap.chars c hc)
    · obtain rfl := List.mem_singleton.1 hc
      decide
  have hnone : ∀ c ∈ ([] : Text), c = CodePoint.ofChar '-' := by simp
  simpa [Text.ofString] using Redrawn.arrow hfill hnone hu

/-- Trimming a label takes off what is blank at its end. -/
theorem exists_trim_label {first : CodePoint} (hfirst : isBlank first = false) (label : Text) :
    ∃ l r, label = l ++ r ∧ (∀ c ∈ r, isBlank c = true) ∧ trim (first :: label) = first :: l := by
  obtain ⟨r, hr, heq, -⟩ := exists_trimRight (first :: label)
  obtain ⟨l, hl⟩ := List.head?_eq_some_iff.1 (head?_trim label hfirst)
  have hleft : trimLeft (first :: label) = first :: label := by simp [trimLeft, hfirst]
  have hright : trimRight (first :: label) = first :: l := by rw [← hl, trim, hleft]
  rw [hright] at heq
  exact ⟨l, r, (List.cons.inj heq).2, hr, hl⟩

theorem redraws_closeLabelledArrow : Redraws closeLabelledArrow := by
  intro t lexeme replacement h
  obtain ⟨gap, first, label, closing, rest, hgap, hfirst, hclosing, -, rfl, rfl, rfl⟩ :=
    exists_of_closeLabelledArrow h
  obtain ⟨final, dashes, inner, hfinal, hdashes, hinner, rfl, -⟩ :=
    exists_of_read_labelClosing hclosing
  obtain ⟨l, r, rfl, hr, htrim⟩ := exists_trim_label (startsLabel_iff.1 hfirst).1 label
  refine ⟨by simp [Text.ofString], rest, rfl, ?_⟩
  intro u hu
  obtain ⟨x, hx, hshape⟩ : ∃ x, (∀ c ∈ x, isArrowFill c = true) ∧
      dashes ++ inner = CodePoint.ofChar '-' :: x := by
    have hfill := fun c hc => isArrowFill_of_isGap (hinner c hc)
    rcases hdashes with rfl | rfl
    · exact ⟨inner, hfill, rfl⟩
    · exact ⟨CodePoint.ofChar '-' :: inner, isArrowFill_of_mem_dash_cons hfill, rfl⟩
  have hblanks : ∀ c ∈ r ++ final, isBlank c = true := by
    intro c hc
    exact (List.mem_append.1 hc).elim (hr c) fun hc => isBlank_of_isGap (hfinal.chars c hc)
  have hne : r ++ final ≠ [] := List.append_ne_nil_of_right_ne_nil _ hfinal.ne_nil
  have hclose := Redrawn.closeLabel hne hblanks hx hu
  have hopen := Redrawn.openLabel hgap hfirst (hclose.append_left l)
  have hold : Text.ofString "--" ++ gap ++ first :: (l ++ r) ++
      (final ++ dashes ++ inner ++ Text.ofString ">") ++ rest =
        Text.ofString "--" ++ (gap ++ first :: (l ++ (r ++ final ++
          CodePoint.ofChar '-' :: (x ++ CodePoint.ofChar '>' :: rest)))) := by
    rw [List.append_assoc final, hshape]
    simp [Text.ofString]
  have hnew : Text.ofString "-- " ++ trim (first :: (l ++ r)) ++ Text.ofString " -->" ++ u =
      Text.ofString "-- " ++ first :: (l ++ (Text.ofString " -->" ++ u)) := by
    rw [htrim]
    simp
  exact hold ▸ hnew ▸ hopen

/-- Without line-break tags cleaning only redraws arrows. -/
theorem exists_redrawn_clean (code : Text) :
    ∃ t u, Redrawn false (breakLines code) t ∧ Redrawn false t u ∧ Redrawn false u (clean code) :=
  ⟨_, _, redraws_splitLongArrow.redrawn _, redraws_splitShortArrow.redrawn _,
    redraws_closeLabelledArrow.redrawn _⟩

/-! ### Line-break tags -/

/-- A line-break tag starts with prohibited markup. -/
theorem isMarkup_br {b r : CodePoint} (hb : b = CodePoint.ofChar 'b' ∨ b = CodePoint.ofChar 'B')
    (hr : r = CodePoint.ofChar 'r' ∨ r = CodePoint.ofChar 'R') :
    IsMarkup [CodePoint.ofChar '<', b, r] := by
  have hbr : SameName "br" [b, r] := by
    refine List.Forall₂.cons ?_ (List.Forall₂.cons ?_ List.Forall₂.nil)
    · rcases hb with rfl | rfl <;> decide
    · rcases hr with rfl | rfl <;> decide
  exact ⟨[], [b, r], Or.inl ⟨by simp, by simp⟩, ⟨"br", by simp [tagNames], hbr⟩, rfl⟩

theorem stops_isWord_tagEnd {blanks slash s : Text} (hblanks : ∀ c ∈ blanks, isBlank c = true)
    (hslash : slash = Text.ofString "/" ∨ slash = []) :
    Stops isWord (blanks ++ slash ++ CodePoint.ofChar '>' :: s) := by
  cases blanks with
  | cons c blanks => exact stops_cons.2 (isWord_of_isBlank (hblanks c (by simp)))
  | nil =>
    rcases hslash with rfl | rfl
    · exact stops_cons.2 (by decide)
    · exact stops_cons.2 (by decide)

theorem markupRule_ne_none_of_tag {code before blanks slash rest : Text} {b r : CodePoint}
    (hb : b = CodePoint.ofChar 'b' ∨ b = CodePoint.ofChar 'B')
    (hr : r = CodePoint.ofChar 'r' ∨ r = CodePoint.ofChar 'R')
    (hblanks : ∀ c ∈ blanks, isBlank c = true) (hslash : slash = Text.ofString "/" ∨ slash = [])
    (hcode : code = before ++ ([CodePoint.ofChar '<', b, r] ++
      (blanks ++ slash ++ CodePoint.ofChar '>' :: rest))) :
    markupRule code ≠ none := by
  rw [markupRule, ne_eq, Option.map_eq_none_iff, search_markup_eq_none_iff]
  intro h
  exact h before _ _ hcode (isMarkup_br hb hr) (stops_isWord_tagEnd hblanks hslash)

/-- Around code without markup no line-break tag can stand either. -/
theorem breakLines_eq_self {t : Text} (h : markupRule (unfence t) = none) : breakLines t = t := by
  obtain ⟨l, r, ht, hl, hr⟩ := exists_unfence t
  refine Scanner.substitute_eq_self ?_
  intro u lexeme rest hu hread
  obtain ⟨b, d, blanks, slash, hb, hd, hblanks, hslash, rfl, rfl⟩ := exists_of_read_breakTag hread
  -- The tag starts in the code and ends there, since the fence has neither bracket.
  have hopening : CodePoint.ofChar '<' ∉ l := fun hmem => absurd (hl _ hmem) (by decide)
  have hclosing : CodePoint.ofChar '>' ∉ r := fun hmem => absurd (hr _ hmem) (by decide)
  rw [ht, List.append_assoc l] at hu
  obtain ⟨s, hs⟩ := suffix_of_suffix_append hu hopening
  have hshape : (s ++ CodePoint.ofChar '<' :: b :: d :: (blanks ++ slash)) ++
      CodePoint.ofChar '>' :: rest = unfence t ++ r := by
    rw [← hs]
    simp [Text.ofString]
  obtain ⟨k, hk, -⟩ := exists_of_notMem_end hshape hclosing
  have hcode : unfence t = s ++ ([CodePoint.ofChar '<', b, d] ++
      (blanks ++ slash ++ CodePoint.ofChar '>' :: k)) := by
    rw [hk]
    simp
  exact markupRule_ne_none_of_tag hb hd hblanks hslash hcode h

/-! ### Valid code -/

theorem WellFormed.exists_eq_cons {code : Text} (h : WellFormed code) :
    ∃ c s, code = c :: s ∧ isWord c = true :=
  StartsDiagram.exists_eq_cons (typeRule_eq_none_iff.1 h.type)

theorem Redrawn.wellFormed_unfence {t u : Text} (h : Redrawn false t u)
    (ht : WellFormed (Code.unfence t)) : WellFormed (Code.unfence u) := by
  obtain ⟨c, s, hcode, hword⟩ := ht.exists_eq_cons
  have hne : Code.unfence t ≠ [] := by
    rw [hcode]
    exact List.cons_ne_nil _ _
  have hhead : ∀ d ∈ (Code.unfence t).head?, d ≠ '-' ∧ d ≠ '>' := by
    intro d hd
    rw [hcode] at hd
    obtain rfl : c = d := by simpa using hd
    exact ⟨ne_of_class hword (by decide), ne_of_class hword (by decide)⟩
  obtain ⟨k, hk⟩ := h.unfence hne hhead
  exact hk.wellFormed ht

theorem wellFormed_unfence_clean {t : Text} (h : WellFormed (unfence t)) :
    WellFormed (unfence (clean t)) := by
  obtain ⟨u, v, hu, hv, hclean⟩ := exists_redrawn_clean t
  rw [breakLines_eq_self h.markup] at hu
  exact hclean.wellFormed_unfence (hv.wellFormed_unfence (hu.wellFormed_unfence h))

/-! ### Verdicts -/

theorem validate_of_wellFormed {t : Text} (h : WellFormed (unfence t)) (minLength : Int) :
    validate minLength (some t) = judge minLength (unfence t) := by
  obtain ⟨c, s, hcode, hword⟩ := h.exists_eq_cons
  have hmem : c ∈ unfence t := by
    rw [hcode]
    exact List.mem_cons_self ..
  exact validate_of_mem_unfence hmem (isBlank_of_isWord hword) minLength

theorem wellFormed_of_isValid {minLength : Int} {text : Option Text}
    (h : (validate minLength text).isValid = true) :
    ∃ t, text = some t ∧ WellFormed (unfence t) := by
  cases text with
  | none => exact absurd h (by simp [validate, emptyVerdict, Verdict.isValid])
  | some t =>
    unfold validate at h
    simp only at h
    split at h
    · exact absurd h (by simp [emptyVerdict, Verdict.isValid])
    · have hissues : issues minLength (unfence t) = [] := List.isEmpty_iff.1 h
      exact ⟨t, rfl, (issues_eq_nil_iff_wellFormed.1 hissues).1⟩

/-- Well-formed code can only be too short. -/
theorem WellFormed.violations_judge {code : Text} (h : WellFormed code) (minLength : Int) :
    (judge minLength code).violations = [] ∨ (judge minLength code).violations = [.tooShort] := by
  rw [Verdict.violations, judge, h.issues_eq, lengthRule]
  split
  · exact Or.inl rfl
  · exact Or.inr rfl

end FlowDiagram.Code

namespace FlowDiagram
open FlowDiagram.Text FlowDiagram.Code

/-- Cleaning can cost a valid text nothing but its length. -/
theorem cleanThenValidate_of_isValid {s : Settings} {text : Option Text}
    (h : (validate s.minLength text).isValid = true) :
    (cleanThenValidate s text).2.isValid = true ∨
      (cleanThenValidate s text).2.violations = [.tooShort] := by
  obtain ⟨t, rfl, ht⟩ := wellFormed_of_isValid h
  have hclean : WellFormed (unfence (clean t)) := wellFormed_unfence_clean ht
  have hverdict : (cleanThenValidate s (some t)).2 = judge s.minLength (unfence (clean t)) :=
    validate_of_wellFormed hclean s.minLength
  rw [hverdict, isValid_iff_violations_eq_nil]
  exact hclean.violations_judge s.minLength

/-- Six spaces inside an arrow are all that brings this text over the least length. -/
theorem cleanThenValidate_of_isValid_wide_arrow :
    (cleanThenValidate Settings.standard (some "pie a(b)--      >c")).2.violations =
      [.tooShort] := by
  have hvalid : (validate Settings.standard.minLength
      (some (Text.ofString "pie a(b)--      >c"))).isValid = true := by decide +kernel
  exact (cleanThenValidate_of_isValid hvalid).resolve_left (by decide +kernel)

end FlowDiagram
