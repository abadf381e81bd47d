import FlowDiagram.Proofs.Code.Definition
import FlowDiagram.Proofs.Code.Rule
import FlowDiagram.Proofs.Graph.Diagram

/-!
# The rules agree with the writer

Of the seven rules, five find nothing in the text of any diagram: its type is known, its brackets
pair up, and no tag and no broken arrow can come from a name or a label. The other two look at what
the graph itself lacks or repeats, so that the verdict on the code of a graph is read off the graph.
-/

namespace FlowDiagram
open FlowDiagram.Text FlowDiagram.Label FlowDiagram.Code

/-! ### Brackets of a line -/

theorem Text.count_joinWith_eq {a b : CodePoint} {ls : List Text}
    (hfeed : (Text.ofString "\n").count a = (Text.ofString "\n").count b)
    (h : ∀ l ∈ ls, l.count a = l.count b) :
    (joinWith "\n" ls).count a = (joinWith "\n" ls).count b := by
  induction ls with
  | nil => rfl
  | cons l ls ih =>
    have hl : l.count a = l.count b := h l (by simp)
    have hrest : (joinWith "\n" ls).count a = (joinWith "\n" ls).count b :=
      ih fun m hm => h m (List.mem_cons_of_mem _ hm)
    by_cases hls : ls = []
    · subst hls
      exact hl
    · simp only [joinWith_cons _ _ hls, List.count_append, hl, hfeed, hrest]

/-- A character that no label may have does not occur in a text of label characters. -/
theorem Label.count_eq_zero {c : CodePoint} {t : Text} (hc : isLabelChar c = false)
    (ht : ∀ d ∈ t, isLabelChar d = true) : t.count c = 0 := by
  refine List.count_eq_zero.2 fun hmem => ?_
  rw [ht c hmem] at hc
  exact absurd hc (by decide)

theorem isLabelChar_of_mem_bracketPairs {pair : CodePoint × CodePoint} (h : pair ∈ bracketPairs) :
    isLabelChar pair.1 = false ∧ isLabelChar pair.2 = false := by
  have hall : ∀ p ∈ bracketPairs, isLabelChar p.1 = false ∧ isLabelChar p.2 = false := by decide
  exact hall pair h

theorem NodeLine.count_text {pair : CodePoint × CodePoint} (h : pair ∈ bracketPairs)
    (n : NodeLine) : n.text.count pair.1 = n.text.count pair.2 := by
  obtain ⟨hopen, hclose⟩ := isLabelChar_of_mem_bracketPairs h
  have hindent := fun d (hd : d ∈ indent) => isLabelChar_of_mem_indent hd
  have hname := fun d (hd : d ∈ n.name.text) => n.name.isLabelChar hd
  have hlabel := n.label.isWritten.chars
  have hshape : ∀ p ∈ bracketPairs,
      [n.shape.brackets.1, n.shape.brackets.2].count p.1 =
        [n.shape.brackets.1, n.shape.brackets.2].count p.2 := by
    cases n.shape <;> decide
  have hpair := hshape pair h
  simp only [List.count_cons, List.count_nil] at hpair
  simp only [NodeLine.text, List.count_append, List.count_cons, List.count_nil,
    count_eq_zero hopen hindent, count_eq_zero hopen hname, count_eq_zero hopen hlabel,
    count_eq_zero hclose hindent, count_eq_zero hclose hname, count_eq_zero hclose hlabel]
  omega

theorem EdgeLine.count_text {c : CodePoint} (hc : isLabelChar c = false) (hgt : c ≠ '>')
    (e : EdgeLine) : e.text.count c = 0 := by
  refine List.count_eq_zero.2 fun hmem => ?_
  rcases EdgeLine.mem_text hmem with h | h
  · rw [h] at hc
    exact absurd hc (by decide)
  · exact hgt h

/-! ### Ids of a line -/

theorem isBlank_of_mem_indent {c : CodePoint} (h : c ∈ indent) : isBlank c = true := by
  have hall : ∀ c ∈ indent, isBlank c = true := by decide
  exact hall c h

/-- A node line defines the name of its node. -/
theorem NodeLine.definedId?_text (n : NodeLine) : definedId? n.text = some n.name.text := by
  have hopening : isWord n.shape.brackets.1 = false ∧
      isShapeOpening n.shape.brackets.1 = true := by
    cases n.shape <;> decide
  rw [NodeLine.text, definedId?_append (fun _ => isBlank_of_mem_indent) n.name.isName.ne_nil
    n.name.isName.isWord hopening.1, if_pos hopening.2]

/-- An edge line defines nothing. -/
theorem EdgeLine.definedId?_text (e : EdgeLine) : definedId? e.text = none := by
  have hspace : isWord ' ' = false ∧ ¬ isShapeOpening ' ' = true := by decide
  obtain ⟨rest, htext⟩ := e.exists_text_eq
  rw [htext, definedId?_append (fun _ => isBlank_of_mem_indent) e.source.isName.ne_nil
    e.source.isName.isWord hspace.1, if_neg hspace.2]

namespace Diagram

/-! ### The five rules that find nothing -/

theorem count_of_mem_lines {d : Diagram} {l : Text} (hl : l ∈ d.lines)
    {pair : CodePoint × CodePoint} (h : pair ∈ bracketPairs) :
    l.count pair.1 = l.count pair.2 := by
  obtain ⟨hopen, hclose⟩ := isLabelChar_of_mem_bracketPairs h
  have hgt : ∀ p ∈ bracketPairs, p.1 ≠ '>' ∧ p.2 ≠ '>' := by decide
  rcases mem_lines.1 hl with rfl | ⟨n, -, rfl⟩ | ⟨-, rfl⟩ | ⟨e, -, rfl⟩
  · rw [count_eq_zero hopen fun c hc => mem_header hc,
      count_eq_zero hclose fun c hc => mem_header hc]
  · exact n.count_text h
  · rfl
  · rw [e.count_text hopen (hgt pair h).1, e.count_text hclose (hgt pair h).2]

theorem typeRule_text (d : Diagram) : typeRule d.text = none := by
  obtain ⟨rest, hrest⟩ := d.header_prefix_text
  rw [typeRule_eq_none_iff]
  refine ⟨"graph", by decide, toLowerAscii (Text.ofString " " ++ d.direction.code ++ rest), ?_⟩
  rw [← hrest]
  rfl

theorem bracketRule_text (d : Diagram) : bracketRule d.text = none := by
  have hfeed : ∀ p ∈ bracketPairs,
      (Text.ofString "\n").count p.1 = (Text.ofString "\n").count p.2 := by decide
  rw [bracketRule_eq_none_iff]
  intro pair h
  exact count_joinWith_eq (hfeed pair h) fun l hl => count_of_mem_lines hl h

theorem markupRule_text (d : Diagram) : markupRule d.text = none :=
  markupRule_of_lt_notMem d.lt_notMem_text

/-- Every head of an arrow follows a dash. -/
theorem arrowRule_text (d : Diagram) : arrowRule d.text = none := by
  rw [arrowRule_eq_none_iff]
  intro harrow
  obtain ⟨l, hl, s, t, hst⟩ := exists_infix_of_infix_joinWith harrow (by decide) (by decide)
  have hline : l = (s ++ Text.ofString "- ") ++ ('>' : CodePoint) :: t := by
    rw [← hst, List.append_assoc, List.append_assoc]
    rfl
  obtain ⟨e, -, he⟩ := exists_edge_of_arrow hl hline
  have hlast : some (CodePoint.ofChar ' ') = some (CodePoint.ofChar '-') := by
    have h := congrArg List.getLast? he
    rwa [List.getLast?_append, List.getLast?_append] at h
  exact absurd hlast (by decide)

/-! ### Ids of a diagram -/

theorem definedId?_header (d : Diagram) : definedId? d.header = none := by
  unfold header
  cases d.direction <;> rfl

theorem definedIds_text (d : Diagram) :
    definedIds d.text = d.nodes.map fun n => n.name.text := by
  have hnodes : (d.nodes.map NodeLine.text).filterMap definedId? =
      d.nodes.map fun n => n.name.text := by
    rw [List.filterMap_map, ← List.filterMap_eq_map]
    exact List.filterMap_congr fun n _ => n.definedId?_text
  have hedges : (d.edges.map EdgeLine.text).filterMap definedId? = [] := by
    rw [List.filterMap_map, List.filterMap_eq_nil_iff]
    exact fun e _ => e.definedId?_text
  rw [definedIds, lines_text, Diagram.lines, List.cons_append,
    List.filterMap_cons_none d.definedId?_header, List.filterMap_append, hnodes]
  cases d.edges.isEmpty with
  | true => simp
  | false =>
    have hempty : definedId? [] = none := rfl
    simp [hempty, hedges]

/-! ### The two rules that look at the graph -/

/-- A line after the header brings the text over the least length. -/
theorem length_text_of_mem {d : Diagram} {l : Text} (hl : l ∈ d.lines.tail) :
    d.header.length + 1 + l.length ≤ d.text.length := by
  have htail : d.lines = d.header :: d.lines.tail := rfl
  have hne : d.lines.tail ≠ [] := List.ne_nil_of_mem hl
  have hle := (infix_joinWith_of_mem "\n" hl).length_le
  have hfeed : (Text.ofString "\n").length = 1 := rfl
  rw [text, htail, joinWith_cons _ _ hne, List.length_append, List.length_append, hfeed]
  omega

theorem length_header (d : Diagram) : d.header.length = 8 := by
  unfold header
  cases d.direction <;> rfl

/-- There is a node or an edge to write. -/
theorem exists_mem_of_nonempty {d : Diagram} (h : ¬ (d.nodes = [] ∧ d.edges = [])) :
    ∃ l ∈ d.lines.tail, 8 ≤ l.length ∧ ∃ sign ∈ structuralSigns, sign <:+: l := by
  have hindent : indent.length = 4 := rfl
  cases hnodes : d.nodes with
  | cons n ns =>
    refine ⟨n.text, by simp [lines, hnodes], ?_, ?_⟩
    · have hname := List.length_pos_iff.2 n.name.isName.ne_nil
      have hlabel := List.length_pos_iff.2 n.label.isWritten.ne_nil
      simp only [NodeLine.text, List.length_append, List.length_cons, List.length_nil, hindent]
      omega
    · have hsign : [n.shape.brackets.1] ∈ structuralSigns := by
        cases n.shape <;> decide
      refine ⟨_, hsign, indent ++ n.name.text, n.label.text ++ [n.shape.brackets.2], ?_⟩
      simp [NodeLine.text]
  | nil =>
    cases hedges : d.edges with
    | nil => exact absurd ⟨hnodes, hedges⟩ h
    | cons e es =>
      refine ⟨e.text, by simp [lines, hedges], ?_, ?_⟩
      · have hsource := List.length_pos_iff.2 e.source.isName.ne_nil
        have harrow : (Text.ofString "--> ").length = 4 := rfl
        simp only [EdgeLine.text, EdgeLine.shaft, EdgeLine.lead, List.length_append, hindent, harrow]
        omega
      · refine ⟨"-->", by decide, e.shaft, Text.ofString " " ++ e.target.text, ?_⟩
        simp only [EdgeLine.text, List.append_assoc]
        rfl

theorem lengthRule_text {d : Diagram} (h : ¬ (d.nodes = [] ∧ d.edges = [])) :
    lengthRule 15 d.text = none := by
  obtain ⟨l, hl, hlen, -⟩ := exists_mem_of_nonempty h
  have hle := length_text_of_mem hl
  rw [length_header] at hle
  rw [lengthRule_eq_none_iff]
  omega

theorem structureRule_text {d : Diagram} (h : ¬ (d.nodes = [] ∧ d.edges = [])) :
    structureRule d.text = none := by
  obtain ⟨l, hl, -, sign, hsign, hin⟩ := exists_mem_of_nonempty h
  rw [structureRule_eq_none_iff]
  exact Or.inl ⟨sign, hsign, hin.trans (infix_joinWith_of_mem "\n" (List.mem_of_mem_tail hl))⟩

/-! ### The verdict on a diagram -/

theorem validate_text (minLength : Int) (d : Diagram) :
    validate minLength (some d.text) = judge minLength d.text := by
  have hmem : CodePoint.ofChar 'g' ∈ d.text := List.mem_of_head? d.head?_text
  rw [validate_of_mem hmem (by decide), unfence_text]

theorem duplicateRule_text (d : Diagram) :
    (duplicateRule d.text).toList.map Issue.kind =
      if (d.nodes.map fun n => n.name.text).Nodup then [] else [.duplicateNodeId] := by
  unfold duplicateRule
  rw [definedIds_text]
  cases hrepeated : repeated (d.nodes.map fun n => n.name.text) with
  | nil => rw [if_pos (repeated_eq_nil_iff.1 hrepeated)]; rfl
  | cons id ids =>
    have hnodup : ¬ (d.nodes.map fun n => n.name.text).Nodup := by
      rw [← repeated_eq_nil_iff, hrepeated]
      exact List.cons_ne_nil _ _
    rw [if_neg hnodup]
    rfl

/-- Of a diagram without nodes and edges only the header is written. -/
theorem kinds_header (d : Diagram) :
    (issues 15 d.header).map Issue.kind = [.tooShort, .noStructuralSyntax] := by
  have hall : ∀ x : Direction, (issues 15 (Text.ofString "graph " ++ x.code)).map Issue.kind =
      [.tooShort, .noStructuralSyntax] := by
    intro x
    cases x <;> decide +kernel
  exact hall d.direction

theorem violations_text (d : Diagram) :
    (judge 15 d.text).violations =
      if d.nodes = [] ∧ d.edges = [] then [.tooShort, .noStructuralSyntax]
      else if (d.nodes.map fun n => n.name.text).Nodup then [] else [.duplicateNodeId] := by
  split
  · rename_i h
    have htext : d.text = d.header := by simp [text, lines, h.1, h.2]
    rw [htext]
    exact d.kinds_header
  · rename_i h
    rw [← duplicateRule_text, Verdict.violations, judge]
    simp only [issues_eq_append, typeRule_text, lengthRule_text h, bracketRule_text,
      markupRule_text, arrowRule_text, structureRule_text h, Option.toList_none, List.nil_append,
      List.append_nil]

theorem length_lines (d : Diagram) :
    d.lines.length = 1 + d.nodes.length + if d.edges = [] then 0 else 1 + d.edges.length := by
  cases hedges : d.edges with
  | nil =>
    simp only [lines, hedges, List.isEmpty_nil, if_true, List.append_nil, List.length_cons,
      List.length_map]
    omega
  | cons e es =>
    simp only [lines, hedges, List.isEmpty_cons, Bool.false_eq_true, if_false, List.length_append,
      List.length_cons, List.length_map, reduceCtorEq]
    omega

end Diagram

/-! ### The verdict on a graph -/

/-- The names of the nodes repeat exactly where their ids do. -/
theorem Graph.nameOf_injOn_nodes (g : Graph) :
    Set.InjOn (NameTable.ofIds g.ids).nameOf {id | id ∈ g.nodeIds} :=
  (NameTable.nameOf_injOn g.ids).mono fun _ hid => List.mem_append.2 (Or.inl hid)

/-- The verdict on the code of a graph, read off the graph. -/
theorem Graph.validate_compile (direction : Option Text) (limit : Int) (g : Graph) :
    let code := Graph.compile Settings.standard.fallbackLabel direction limit (some g)
    let verdict := validate Settings.standard.minLength (some code)
    verdict.violations =
        (if g.nodes = [] ∧ g.edges = [] then [.tooShort, .noStructuralSyntax]
        else if g.nodeIds.Nodup then [] else [.duplicateNodeId]) ∧
      (verdict.isValid = true ↔ ¬ (g.nodes = [] ∧ g.edges = []) ∧ g.nodeIds.Nodup) ∧
      verdict.duplicateIds = (repeated g.nodeIds).map (NameTable.ofIds g.ids).nameOf ∧
      verdict.stats =
        { length := code.length
          lines := 1 + g.nodes.length + if g.edges = [] then 0 else 1 + g.edges.length
          nodeDefinitions := g.nodes.length } := by
  intro code verdict
  have hcode : code = (g.diagram isPlain_standard limit direction).text :=
    Graph.compile_eq_text isPlain_standard direction limit g
  have hverdict : verdict = judge 15 (g.diagram isPlain_standard limit direction).text := by
    rw [← Diagram.validate_text, ← hcode]
    rfl
  have hnames := g.map_name_diagram isPlain_standard limit direction
  have hnodup : (g.nodeIds.map (NameTable.ofIds g.ids).nameOf).Nodup ↔ g.nodeIds.Nodup := by
    rw [← repeated_eq_nil_iff, repeated_map g.nameOf_injOn_nodes, List.map_eq_nil_iff,
      repeated_eq_nil_iff]
  have hviolations : verdict.violations =
      (if g.nodes = [] ∧ g.edges = [] then [.tooShort, .noStructuralSyntax]
      else if g.nodeIds.Nodup then [] else [.duplicateNodeId]) := by
    rw [hverdict, Diagram.violations_text, hnames]
    simp only [hnodup, Graph.diagram, List.map_eq_nil_iff]
  refine ⟨hviolations, ?_, ?_, ?_⟩
  · rw [isValid_iff_violations_eq_nil, hviolations]
    split
    · simp_all
    · simp_all
  · rw [hverdict, judge, Diagram.definedIds_text, hnames]
    exact repeated_map g.nameOf_injOn_nodes
  · rw [hverdict, judge, Diagram.lines_text, Diagram.length_lines, Diagram.definedIds_text, ← hcode]
    simp [Graph.diagram]

end FlowDiagram
