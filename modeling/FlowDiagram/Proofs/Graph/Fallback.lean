import FlowDiagram.Proofs.Code.Level
import FlowDiagram.Proofs.Graph.Agreement
import FlowDiagram.Proofs.Label.Fallback
import FlowDiagram.Workflow

/-!
# Configured fallbacks in code

The fallback is the one text that reaches the code of a graph from the settings. With its blanks
levelled the code is that for the levelled fallback, and a graph whose labels all leave something is
written alike for every fallback. So unless the fallback itself has a meaning in code and is used,
the verdict finds nothing that a label could have brought in.
-/

namespace FlowDiagram
open FlowDiagram.Text FlowDiagram.Label FlowDiagram.Code

/-! ### The configured fallback -/

namespace Settings

theorem trimmed_fallbackLabelOf (value : Text) :
    fallbackLabelOf value ≠ [] ∧ Trimmed (fallbackLabelOf value) := by
  unfold fallbackLabelOf
  split
  · exact ⟨isPlain_standard.ne_nil, isPlain_standard.trimmed⟩
  · rename_i h
    exact ⟨mt List.isEmpty_iff.2 h, trimmed_trim value⟩

theorem fallbackLabel_ofEnvironment (value : Text) :
    (ofEnvironment [("DIAGRAMKIT_FALLBACK_LABEL", value)]).fallbackLabel =
      fallbackLabelOf value := by
  simp [ofEnvironment, Environment.value?]

end Settings

/-! ### Levelled labels -/

theorem Label.isPlain_level {t : Text} (hne : t ≠ []) (ht : Trimmed t)
    (hchars : ∀ c ∈ t, isInert c = true ∧ c ≠ '<' ∧ c ≠ '>') : IsPlain (level t) := by
  refine ⟨?_, ?_, ?_⟩
  · simpa [level] using hne
  · intro c hc
    obtain ⟨d, hd, rfl⟩ := List.mem_map.1 hc
    obtain ⟨hinert, hlt, hgt⟩ := hchars d hd
    simp only [isInert, Bool.and_eq_true, Bool.not_eq_true'] at hinert
    cases hblank : isBlank d with
    | true =>
      have hspace : levelBlank d = ' ' := by simp [levelBlank, hblank, hinert.2]
      rw [hspace]
      decide
    | false =>
      rw [levelBlank_of_not_blank hblank]
      simp [isLabelChar, hinert.1, hlt, hgt, hblank]
  · exact trimmed_level_iff.2 ht

theorem level_remainder (raw : Text) : level (remainder raw) = remainder raw := by
  refine level_eq_self fun c hc hblank => ?_
  rcases mem_remainder hc with h | ⟨-, -, h⟩
  · exact h
  · rw [h] at hblank
    exact absurd hblank (by decide)

theorem level_sanitize (fallback raw : Text) :
    level (sanitize fallback raw) = sanitize (level fallback) raw := by
  cases h : leavesLabel raw with
  | true =>
    rw [sanitize_of_leavesLabel _ h, sanitize_of_leavesLabel _ h, level_remainder]
  | false => rw [sanitize_of_not_leavesLabel _ h, sanitize_of_not_leavesLabel _ h]

theorem level_shorten (limit : Int) (label : Text) :
    level (shorten limit label) = shorten limit (level label) := by
  have hdots : level ellipsis = ellipsis := by decide
  have htake : ∀ n, level (label.take n) = (level label).take n := fun n => List.map_take
  unfold shorten
  rw [length_level]
  split
  · rfl
  · split
    · exact htake _
    · rw [level_append, hdots, ← trimRight_level, htake]

theorem level_renderLabel (fallback : Text) (limit : Int) (raw : Option Text) :
    level (renderLabel fallback limit raw) = renderLabel (level fallback) limit raw := by
  rw [renderLabel, renderLabel, level_shorten, level_sanitize]

/-! ### Levelled code -/

theorem level_nameOf (ids : List Text) (id : Text) :
    level ((NameTable.ofIds ids).nameOf id) = (NameTable.ofIds ids).nameOf id := by
  refine level_eq_self fun c hc hblank => ?_
  rw [isBlank_of_isWord ((NameTable.isName_nameOf ids id).isWord c hc)] at hblank
  exact absurd hblank (by decide)

theorem Node.level_render (fallback : Text) (limit : Int) (ids : List Text) (n : Node) :
    level (n.render fallback limit (NameTable.ofIds ids)) =
      n.render (level fallback) limit (NameTable.ofIds ids) := by
  have hindent : level indent = indent := by decide
  have hbrackets : ∀ s : Shape,
      levelBlank s.brackets.1 = s.brackets.1 ∧ levelBlank s.brackets.2 = s.brackets.2 := by
    intro s
    cases s <;> decide
  simp only [Node.render, level_append, level_cons, level_nil, hindent, level_nameOf,
    level_renderLabel, hbrackets]

theorem Edge.level_render (fallback : Text) (limit : Int) (ids : List Text) (e : Edge) :
    level (e.render fallback limit (NameTable.ofIds ids)) =
      e.render (level fallback) limit (NameTable.ofIds ids) := by
  have hindent : level indent = indent := by decide
  have hspace : level (Text.ofString " ") = " " := by decide
  have hdashes : level (Text.ofString "--") = "--" := by decide
  have harrow : level (Text.ofString "--> ") = "--> " := by decide
  cases h : e.isLabelled with
  | true =>
    simp only [Edge.render, h, if_true, level_append, hindent, hspace, hdashes, harrow,
      level_nameOf, level_renderLabel]
  | false =>
    simp only [Edge.render, h, Bool.false_eq_true, if_false, level_append, hindent, hspace, harrow,
      level_nameOf]

theorem Graph.level_compile (fallback : Text) (direction : Option Text) (limit : Int)
    (g : Graph) :
    level (Graph.compile fallback direction limit (some g)) =
      Graph.compile (level fallback) direction limit (some g) := by
  have hheader : level (Graph.header direction) = Graph.header direction := by
    unfold Graph.header
    cases Direction.ofText (direction.getD []) <;> decide
  have hlines : (g.renderLines fallback direction limit).map level =
      g.renderLines (level fallback) direction limit := by
    simp only [Graph.renderLines, List.map_append, List.map_cons, List.map_map, hheader,
      Function.comp_def, Node.level_render, List.isEmpty_map]
    split
    · rfl
    · simp only [List.map_cons, level_nil, List.map_map, Function.comp_def, Edge.level_render]
  rw [compile_eq_joinWith, compile_eq_joinWith, joinWith_level, hlines]

/-! ### Labels that leave something -/

theorem renderLabel_of_leavesLabel {raw : Option Text}
    (h : leavesLabel (withoutAngles (raw.getD [])) = true) (fallback other : Text) (limit : Int) :
    renderLabel fallback limit raw = renderLabel other limit raw := by
  rw [renderLabel, renderLabel, sanitize_of_leavesLabel _ h, sanitize_of_leavesLabel _ h]

/-- The raw labels that are written: those of the nodes, and of the edges those that are not
blank. -/
def Graph.writtenLabels (g : Graph) : List (Option Text) :=
  g.nodes.map Node.label ++ (g.edges.filter Edge.isLabelled).map Edge.label

/-- Where every label leaves something, the fallback is not read. -/
theorem Graph.compile_of_leavesLabel {g : Graph}
    (h : ∀ raw ∈ g.writtenLabels, leavesLabel (withoutAngles (raw.getD [])) = true)
    (fallback other : Text) (direction : Option Text) (limit : Int) :
    Graph.compile fallback direction limit (some g) =
      Graph.compile other direction limit (some g) := by
  have hnodes : g.nodes.map (Node.render fallback limit (NameTable.ofIds g.ids)) =
      g.nodes.map (Node.render other limit (NameTable.ofIds g.ids)) := by
    refine List.map_congr_left fun n hn => ?_
    have hleaves := h n.label (List.mem_append_left _ (List.mem_map_of_mem hn))
    rw [Node.render, Node.render, renderLabel_of_leavesLabel hleaves fallback other]
  have hedges : g.edges.map (Edge.render fallback limit (NameTable.ofIds g.ids)) =
      g.edges.map (Edge.render other limit (NameTable.ofIds g.ids)) := by
    refine List.map_congr_left fun e he => ?_
    cases hlabelled : e.isLabelled with
    | true =>
      have hmem : e ∈ g.edges.filter Edge.isLabelled := List.mem_filter.2 ⟨he, hlabelled⟩
      have hleaves := h e.label (List.mem_append_right _ (List.mem_map_of_mem hmem))
      rw [Edge.render, Edge.render, renderLabel_of_leavesLabel hleaves fallback other]
    | false => simp only [Edge.render, hlabelled, Bool.false_eq_true, if_false]
  simp only [Graph.compile, Graph.renderLines, hnodes, hedges]

/-! ### Code that is levelled to a diagram -/

namespace Diagram
variable {d : Diagram} {code : Text}

theorem validate_of_level (h : level code = d.text) (minLength : Int) :
    validate minLength (some code) = judge minLength code := by
  have htrimmed : Trimmed code := trimmed_level_iff.1 (h ▸ d.trimmed_text)
  have hmem : CodePoint.ofChar 'g' ∈ code := by
    rw [← mem_level_iff (by decide), h]
    exact List.mem_of_head? d.head?_text
  have hunfence : unfence code = code := by
    refine unfence_eq_self htrimmed ?_ ?_
    · intro hhead
      have hlevel : (level code).head? = some (CodePoint.ofChar '\x60') := by
        rw [level, List.head?_map, hhead]
        rfl
      rw [h, head?_text] at hlevel
      exact absurd hlevel (by decide)
    · intro hlast
      have hlevel : (level code).getLast? = some (CodePoint.ofChar '\x60') := by
        rw [level, List.getLast?_map, hlast]
        rfl
      rw [h] at hlevel
      exact (d.last_text _ hlevel).2 rfl
  rw [validate_of_mem hmem (by decide), hunfence]

/-- What a label could bring in is not found, whatever blanks the code has. -/
theorem has_of_level (h : level code = d.text)
    (hnodup : (d.nodes.map fun n => n.name.text).Nodup) (minLength : Int) :
    ∀ kind ∈ [Violation.unbalancedBrackets, .prohibitedMarkup, .brokenArrowSyntax,
      .duplicateNodeId], (validate minLength (some code)).has kind = false := by
  have hbrackets : bracketRule code = none := bracketRule_of_level (h ▸ d.bracketRule_text)
  have hmarkup : markupRule code = none := by
    refine markupRule_of_lt_notMem ?_
    rw [← mem_level_iff (by decide), h]
    exact d.lt_notMem_text
  have harrow : arrowRule code = none := arrowRule_of_level (h ▸ d.arrowRule_text)
  have hduplicate : duplicateRule code = none := by
    rw [← duplicateRule_level, h, duplicateRule_eq_none_iff, definedIds_text, repeated_eq_nil_iff]
    exact hnodup
  have hnot : ∀ {kind rule}, (kind, rule) ∈ kindedRules minLength → rule code = none →
      (validate minLength (some code)).has kind = false := by
    intro kind rule hkind hrule
    rw [validate_of_level h, ← Bool.not_eq_true, has_judge_iff hkind, not_not]
    exact hrule
  simp only [List.forall_mem_cons, List.not_mem_nil, false_implies, implies_true, and_true]
  exact ⟨hnot (by simp [kindedRules]) hbrackets, hnot (by simp [kindedRules]) hmarkup,
    hnot (by simp [kindedRules]) harrow, hnot (by simp [kindedRules]) hduplicate⟩

end Diagram

/-! ### What a fallback can bring in -/

/-- The levelled code is that of a plain fallback. -/
theorem Graph.exists_plain {fallback : Text} (hne : fallback ≠ []) (htrimmed : Trimmed fallback)
    {g : Graph}
    (h : (∀ c ∈ fallback, isInert c = true ∧ c ≠ '<' ∧ c ≠ '>') ∨
      ∀ raw ∈ g.writtenLabels, leavesLabel (withoutAngles (raw.getD [])) = true)
    (direction : Option Text) (limit : Int) :
    ∃ plain, IsPlain plain ∧ level (Graph.compile fallback direction limit (some g)) =
      Graph.compile plain direction limit (some g) := by
  rcases h with hchars | hleaves
  · exact ⟨level fallback, isPlain_level hne htrimmed hchars,
      Graph.level_compile fallback direction limit g⟩
  · refine ⟨_, isPlain_standard, ?_⟩
    rw [Graph.level_compile]
    exact Graph.compile_of_leavesLabel hleaves _ _ direction limit

/-- A label has a meaning in code only where a fallback with one takes the place of a text that
leaves nothing. A graph with such a fallback, or without such a text, shows no sign of it. -/
theorem fallback_confined (value : Text) :
    let s := Settings.ofEnvironment [("DIAGRAMKIT_FALLBACK_LABEL", value)]
    (∀ raw, TextOperation.sanitizeLabel.apply s raw ≠ [] ∧
        ((∀ c ∈ TextOperation.sanitizeLabel.apply s raw, isInert c = true) ↔
          (∀ c ∈ s.fallbackLabel, isInert c = true) ∨ leavesLabel (raw.getD []) = true)) ∧
      ∀ direction limit g, g.nodeIds.Nodup →
        ((∀ c ∈ s.fallbackLabel, isInert c = true ∧ c ≠ '<' ∧ c ≠ '>') ∨
          ∀ raw ∈ g.writtenLabels, leavesLabel (withoutAngles (raw.getD [])) = true) →
        ∀ kind ∈ [Violation.unbalancedBrackets, .prohibitedMarkup, .brokenArrowSyntax,
          .duplicateNodeId], (compileAndCheck s direction limit (some g)).2.has kind = false := by
  intro s
  have hfallback : s.fallbackLabel = Settings.fallbackLabelOf value :=
    Settings.fallbackLabel_ofEnvironment value
  obtain ⟨hne, htrimmed⟩ := Settings.trimmed_fallbackLabelOf value
  rw [← hfallback] at hne htrimmed
  refine ⟨?_, ?_⟩
  · intro raw
    exact ⟨sanitize_ne_nil _ hne _, forall_isInert_sanitize_iff _⟩
  · intro direction limit g hnodup hcase
    obtain ⟨plain, hplain, hlevel⟩ := Graph.exists_plain hne htrimmed hcase direction limit
    rw [Graph.compile_eq_text hplain] at hlevel
    refine Diagram.has_of_level hlevel ?_ s.minLength
    rw [Graph.map_name_diagram, ← repeated_eq_nil_iff, repeated_map g.nameOf_injOn_nodes,
      List.map_eq_nil_iff, repeated_eq_nil_iff]
    exact hnodup

/-- A fallback with a tab stands for the label of a node, and nothing is found. -/
theorem fallback_confined_tab :
    let s := Settings.ofEnvironment [("DIAGRAMKIT_FALLBACK_LABEL", " not\tnamed ")]
    let g : Graph := ⟨[⟨some "a", none, some .box⟩], []⟩
    (compileAndCheck s none 0 (some g)).1 = "graph TD\n    a[not\tnamed]" ∧
      (compileAndCheck s none 0 (some g)).2.has .unbalancedBrackets = false := by
  intro s g
  obtain ⟨-, hgraph⟩ := fallback_confined " not\tnamed "
  refine ⟨by decide +kernel, ?_⟩
  exact hgraph none 0 g (by decide) (Or.inl (by decide)) _ (by decide)

/-- A fallback is neither sanitized nor rid of angle brackets, so that each of the four kinds can be
brought in by one. -/
theorem has_of_meaningful_fallback :
    let graph : Graph := ⟨[⟨some "a", some "()", some .box⟩], []⟩
    CodePoint.ofChar '(' ∈ TextOperation.sanitizeLabel.apply
        (Settings.ofEnvironment [("DIAGRAMKIT_FALLBACK_LABEL", ":(")]) (some []) ∧
      ∀ pair ∈ [(Text.ofString ":(", Violation.unbalancedBrackets), ("<br>", .prohibitedMarkup),
          ("- >", .brokenArrowSyntax), ("x]\n    a[y", .duplicateNodeId)],
        graph.nodeIds.Nodup ∧
          (compileAndCheck (Settings.ofEnvironment [("DIAGRAMKIT_FALLBACK_LABEL", pair.1)]) none 0
            (some graph)).2.has pair.2 = true := by
  decide +kernel

end FlowDiagram
