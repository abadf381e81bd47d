import FlowDiagram.Proofs.Code.Lexeme
import FlowDiagram.Proofs.Graph.Diagram
import FlowDiagram.Repair.Session

/-!
# Repair leaves the code of a graph alone

No lexeme of cleaning stands in the text of a diagram. A line-break tag would need an angle bracket
that nothing writes. An arrow ends at a head, and the heads are known: two dashes stand before each,
so that only a labelled arrow is left. Its dashes would have to be those before a label that then
starts with a gap.
-/

namespace FlowDiagram
open FlowDiagram.Text FlowDiagram.Label FlowDiagram.Code

/-! ### Shafts -/

theorem EdgeLine.dash_notMem_lead (e : EdgeLine) : CodePoint.ofChar '-' ∉ e.lead := by
  intro h
  simp only [EdgeLine.lead, List.mem_append] at h
  rcases h with (h | h) | h
  · exact absurd h (by decide)
  · exact absurd (e.source.isName.isWord _ h) (by decide)
  · exact absurd h (by decide)

/-- A shaft does not hold two dashes with a gap behind them and a gap at its end. -/
theorem EdgeLine.shaft_ne {e : EdgeLine} {s gap mid final : Text} (hgap : IsGapRun gap)
    (hmid : mid ≠ []) (hfinal : IsGapRun final) :
    e.shaft ≠ s ++ (Text.ofString "--" ++ (gap ++ mid ++ final)) := by
  intro h
  unfold EdgeLine.shaft EdgeLine.inset at h
  cases hlabel : e.label? with
  | none =>
    have hmem : CodePoint.ofChar '-' ∈ e.lead := by
      simp only [hlabel, List.append_nil] at h
      rw [h]
      simp [Text.ofString]
    exact e.dash_notMem_lead hmem
  | some label =>
    simp only [hlabel] at h
    obtain ⟨a, ha⟩ : ∃ a, Text.ofString "--" ++ label.text =
        a ++ (Text.ofString "--" ++ (gap ++ mid ++ final)) := by
      have hplace : s ++ CodePoint.ofChar '-' :: (Text.ofString "-" ++ (gap ++ mid ++ final)) =
          e.lead ++ (Text.ofString "--" ++ label.text) := h.symm
      obtain ⟨a, -, ha⟩ := exists_of_notMem_start hplace e.dash_notMem_lead
      exact ⟨a, ha⟩
    have hwritten := label.isWritten
    obtain ⟨u, c, rfl, hc⟩ := hfinal.exists_eq_append
    have hlast : label.text.getLast? = some c := by
      have hend : Text.ofString "--" ++ label.text =
          (a ++ Text.ofString "--" ++ gap ++ mid ++ u) ++ [c] := by simp [ha]
      have hends := congrArg List.getLast? hend
      rwa [List.getLast?_append_of_ne_nil _ hwritten.ne_nil, List.getLast?_concat] at hends
    have hshort : label.text.length ≤ 3 := hwritten.last c hlast (isBlank_of_isGap hc)
    have hgaplen := List.length_pos_iff.2 hgap.ne_nil
    have hmidlen := List.length_pos_iff.2 hmid
    have hlen := congrArg List.length ha
    simp only [List.length_append, List.length_cons, List.length_nil] at hlen
    obtain rfl : a = [] := List.length_eq_zero_iff.1 (by omega)
    obtain ⟨d, v, rfl⟩ := List.exists_cons_of_ne_nil hgap.ne_nil
    have htext : label.text = d :: v ++ mid ++ (u ++ [c]) := List.append_cancel_left ha
    have hd : isBlank d = false := hwritten.head d (by rw [htext]; rfl)
    rw [isBlank_of_isGap (hgap.chars d (by simp))] at hd
    exact absurd hd (by decide)

/-! ### No lexeme of cleaning -/

/-- A labelled arrow stays within one line up to its head. -/
theorem lineFeed_notMem_labelled {gap label final dashes inner : Text} {first : CodePoint}
    (hgap : IsGapRun gap) (hfirst : startsLabel first = true)
    (hlabel : ∀ c ∈ label, c ≠ CodePoint.ofChar '\n') (hfinal : IsGapRun final)
    (hdashes : dashes = Text.ofString "-" ∨ dashes = Text.ofString "--")
    (hinner : ∀ c ∈ inner, isGap c = true) :
    CodePoint.ofChar '\n' ∉
      Text.ofString "--" ++ (gap ++ (first :: label) ++ final) ++ dashes ++ inner := by
  have hopening : CodePoint.ofChar '\n' ∉ Text.ofString "--" := by decide
  have hblank : first ≠ CodePoint.ofChar '\n' := by
    intro heq
    subst heq
    exact absurd hfirst (by decide)
  have hlabelled : CodePoint.ofChar '\n' ∉ label := fun hmem => hlabel _ hmem rfl
  have hdash : CodePoint.ofChar '\n' ∉ dashes := by
    rcases hdashes with rfl | rfl <;> decide
  have hgaps : CodePoint.ofChar '\n' ∉ inner := fun hmem => absurd (hinner _ hmem) (by decide)
  simp only [List.mem_append, List.mem_cons, not_or]
  exact ⟨⟨⟨hopening, ⟨hgap.lineFeed_notMem, hblank.symm, hlabelled⟩, hfinal.lineFeed_notMem⟩,
    hdash⟩, hgaps⟩

namespace Diagram

/-- What stands before a head in the text of a diagram ends a shaft and two dashes. -/
theorem exists_edge_of_infix {d : Diagram} {x : Text} (h : x ++ Text.ofString ">" <:+: d.text)
    (hfeed : CodePoint.ofChar '\n' ∉ x) :
    ∃ e ∈ d.edges, ∃ s, s ++ x = e.shaft ++ Text.ofString "-" ++ Text.ofString "-" := by
  have hnot : CodePoint.ofChar '\n' ∉ x ++ Text.ofString ">" := by
    intro hmem
    rcases List.mem_append.1 hmem with hmem | hmem
    · exact hfeed hmem
    · exact absurd hmem (by decide)
  obtain ⟨l, hl, s, t, hst⟩ := exists_infix_of_infix_joinWith h hnot (by simp [Text.ofString])
  have hline : l = (s ++ x) ++ ('>' : CodePoint) :: t := by
    rw [← hst, List.append_assoc, List.append_assoc, List.append_assoc]
    rfl
  obtain ⟨e, he, hshaft⟩ := exists_edge_of_arrow hl hline
  exact ⟨e, he, s, by rw [hshaft, List.append_assoc]; rfl⟩

theorem breakLines_text (d : Diagram) : breakLines d.text = d.text :=
  breakLines_of_notMem d.lt_notMem_text

theorem splitLongArrow_text (d : Diagram) :
    substitute (splitLongArrow.replaceBy "-->") d.text = d.text := by
  refine Scanner.substitute_eq_self ?_
  intro u lexeme rest hu hread
  obtain ⟨gap, hgap, rfl, rfl⟩ := read_splitLongArrow_eq_some_iff.1 hread
  have hin : (Text.ofString "--" ++ gap) ++ Text.ofString ">" <:+: d.text :=
    (List.prefix_append _ _).isInfix.trans hu.isInfix
  have hfeed : CodePoint.ofChar '\n' ∉ Text.ofString "--" ++ gap := by
    simpa [Text.ofString] using hgap.lineFeed_notMem
  obtain ⟨e, -, s, hs⟩ := exists_edge_of_infix hin hfeed
  rw [← List.append_assoc] at hs
  exact hgap.append_ne _ _ hs

theorem splitShortArrow_text (d : Diagram) :
    substitute (splitShortArrow.replaceBy "->") d.text = d.text := by
  refine Scanner.substitute_eq_self ?_
  intro u lexeme rest hu hread
  obtain ⟨gap, hgap, rfl, rfl⟩ := read_splitShortArrow_eq_some_iff.1 hread
  have hin : (Text.ofString "-" ++ gap ++ Text.ofString "-") ++ Text.ofString ">" <:+: d.text := by
    refine List.IsInfix.trans ⟨[], rest, ?_⟩ hu.isInfix
    simp [Text.ofString]
  have hfeed : CodePoint.ofChar '\n' ∉ Text.ofString "-" ++ gap ++ Text.ofString "-" := by
    simpa [Text.ofString] using hgap.lineFeed_notMem
  obtain ⟨e, -, s, hs⟩ := exists_edge_of_infix hin hfeed
  rw [← List.append_assoc, ← List.append_assoc] at hs
  exact hgap.append_ne _ _ (List.append_cancel_right hs)

theorem closeLabelledArrow_text (d : Diagram) :
    substitute closeLabelledArrow d.text = d.text := by
  refine substitute_eq_self fun u hu => ?_
  cases hread : closeLabelledArrow u with
  | none => rfl
  | some result =>
    obtain ⟨lexeme, replacement⟩ := result
    obtain ⟨gap, first, label, closing, rest, hgap, hfirst, hclosing, hlabel, rfl, -, rfl⟩ :=
      exists_of_closeLabelledArrow hread
    obtain ⟨final, dashes, inner, hfinal, hdashes, hinner, rfl, -⟩ :=
      exists_of_read_labelClosing hclosing
    have hin : (Text.ofString "--" ++ (gap ++ (first :: label) ++ final) ++ dashes ++ inner) ++
        Text.ofString ">" <:+: d.text := by
      refine List.IsInfix.trans ⟨[], rest, ?_⟩ hu.isInfix
      simp
    have hnewline : CodePoint.ofChar '\n' ∉
        Text.ofString "--" ++ (gap ++ (first :: label) ++ final) ++ dashes ++ inner :=
      lineFeed_notMem_labelled hgap hfirst (fun c hc => (hlabel c hc).1) hfinal hdashes hinner
    obtain ⟨e, -, s, hs⟩ := exists_edge_of_infix hin hnewline
    -- The head has its two dashes right before it, and what stands before these is the shaft.
    have hinnerNil : inner = [] := by
      by_contra hne
      rw [← List.append_assoc] at hs
      exact IsGapRun.append_ne ⟨hne, hinner⟩ _ _ hs
    subst hinnerNil
    rw [List.append_nil, ← List.append_assoc] at hs
    rcases hdashes with rfl | rfl
    · have hshaft := List.append_cancel_right hs
      simp only [← List.append_assoc] at hshaft
      exact absurd hshaft (hfinal.append_ne _ _)
    · have htwo : Text.ofString "--" = Text.ofString "-" ++ Text.ofString "-" := rfl
      have hshaft : e.shaft = s ++ (Text.ofString "--" ++ (gap ++ (first :: label) ++ final)) := by
        rw [List.append_assoc e.shaft, ← htwo] at hs
        exact (List.append_cancel_right hs).symm
      exact absurd hshaft (EdgeLine.shaft_ne hgap (List.cons_ne_nil _ _) hfinal)

theorem clean_text (d : Diagram) : clean d.text = d.text := by
  rw [clean, closeArrows, breakLines_text, splitLongArrow_text, splitShortArrow_text,
    closeLabelledArrow_text]

end Diagram

/-! ### Graphs -/

theorem clean_placeholder : clean placeholder = placeholder := by decide +kernel

theorem unfence_placeholder : unfence placeholder = placeholder := by decide +kernel

theorem Graph.clean_compile {fallback : Text} (hf : IsPlain fallback) (direction : Option Text)
    (limit : Int) (g : Option Graph) :
    clean (Graph.compile fallback direction limit g) = Graph.compile fallback direction limit g := by
  cases g with
  | none => exact clean_placeholder
  | some g => rw [Graph.compile_eq_text hf, Diagram.clean_text]

theorem Graph.unfence_compile {fallback : Text} (hf : IsPlain fallback) (direction : Option Text)
    (limit : Int) (g : Option Graph) :
    unfence (Graph.compile fallback direction limit g) =
      Graph.compile fallback direction limit g := by
  cases g with
  | none => exact unfence_placeholder
  | some g => rw [Graph.compile_eq_text hf, Diagram.unfence_text]

end FlowDiagram

namespace FlowDiagram.Repair
open FlowDiagram.Text FlowDiagram.Code

section
variable {settings : Settings} {code : Text} (hbare : unfence code = code)
  (hvalid : (validate settings.minLength (some code)).isValid = true)

/-- What valid code is improved to. -/
def unchanged (code : Text) (verdict : Verdict) : Improvement where
  code := code
  verdict := verdict
  confidence := .alreadyValid
  notes := [.alreadyValid]
  revised := false

include hbare hvalid in
theorem triage_of_isValid (title context : Option Text) :
    Request.triage settings.minLength ⟨some code, title, context⟩ =
      .settled (unchanged code (validate settings.minLength (some code))) := by
  have hcode : Request.bareCode ⟨some code, title, context⟩ = code := hbare
  unfold Request.triage
  simp only [hcode, hvalid, if_true]
  rfl

include hbare hvalid in
/-- Nobody is asked about valid code, and the improver stays as it is. -/
theorem handle_of_isValid (i : Improver) (s : Supply) (title context : Option Text) :
    i.handle settings s ⟨some code, title, context⟩ =
      (⟨.ok (unchanged code (validate settings.minLength (some code))), .none,
        i.reviser.isSome⟩, i, s) := by
  unfold Improver.handle
  rw [triage_of_isValid hbare hvalid]

include hbare hvalid in
theorem improve_of_isValid (reviser : Option (Text → Except Failure Json))
    (title context : Option Text) :
    improve settings.minLength reviser ⟨some code, title, context⟩ =
      .ok (unchanged code (validate settings.minLength (some code))) := by
  unfold improve
  rw [triage_of_isValid hbare hvalid]

end

/-- The code of a graph is a fixed point of every part of the repair. -/
theorem repair_compile (direction : Option Text) (limit : Int) (g : Option Graph) :
    let code := Graph.compile Settings.standard.fallbackLabel direction limit g
    let verdict := validate Settings.standard.minLength (some code)
    clean code = code ∧ unfence code = code ∧
      (verdict.isValid = true → ∀ title context : Option Text,
        (unchanged code verdict).confidence.text = Text.ofString "0.95" ∧
        (∀ reviser, improve Settings.standard.minLength reviser ⟨some code, title, context⟩ =
          .ok (unchanged code verdict)) ∧
        ∀ (i : Improver) (s : Supply),
          i.handle Settings.standard s ⟨some code, title, context⟩ =
            (⟨.ok (unchanged code verdict), .none, i.reviser.isSome⟩, i, s)) := by
  intro code verdict
  have hbare : unfence code = code :=
    Graph.unfence_compile Label.isPlain_standard direction limit g
  refine ⟨Graph.clean_compile Label.isPlain_standard direction limit g, hbare, ?_⟩
  intro hvalid title context
  refine ⟨rfl, ?_, ?_⟩
  · intro reviser
    exact improve_of_isValid hbare hvalid reviser title context
  · intro i s
    exact handle_of_isValid hbare hvalid i s title context

/-- The label of the edge is cut right behind a space. -/
theorem repair_compile_cut_label :
    let code := Graph.compile Settings.standard.fallbackLabel none 2
      (some ⟨[⟨some "a", some "foo -- bar -", none⟩], [⟨some "a", some "b", some "x -- y"⟩]⟩)
    code = Text.ofString "graph TD\n    a[fo]\n\n    a --x --> b" ∧
      Improver.handle Settings.standard ⟨true, none⟩ ⟨[], []⟩ ⟨some code, none, none⟩ =
        (⟨.ok (unchanged code (validate Settings.standard.minLength (some code))), .none, false⟩,
          ⟨true, none⟩, ⟨[], []⟩) := by
  intro code
  have hvalid : (validate Settings.standard.minLength (some code)).isValid = true := by
    decide +kernel
  refine ⟨by decide +kernel, ?_⟩
  exact ((repair_compile none 2 _).2.2 hvalid none none).2.2 ⟨true, none⟩ ⟨[], []⟩

end FlowDiagram.Repair
