import FlowDiagram.Proofs.Code.Fence
import FlowDiagram.Proofs.Graph.Growth
import FlowDiagram.Proofs.Label.Written
import FlowDiagram.Proofs.Text.Class
import FlowDiagram.Proofs.Text.Lines

/-!
# Diagrams

A diagram is what the code of a graph says line by line: a direction, and the names, shapes and
labels of its nodes and edges. Names and labels carry with them what makes them safe, so that every
fact on the written code holds of all diagrams, and the code of a graph is the text of its diagram.
-/

namespace FlowDiagram
open FlowDiagram.Text FlowDiagram.Label

@[ext]
structure Name where
  text : Text
  isName : IsName text

@[ext]
structure CodeLabel where
  text : Text
  isWritten : IsWritten text

@[ext]
structure NodeLine where
  name : Name
  shape : Shape
  label : CodeLabel

@[ext]
structure EdgeLine where
  source : Name
  label? : Option CodeLabel
  target : Name

@[ext]
structure Diagram where
  direction : Direction
  nodes : List NodeLine
  edges : List EdgeLine

/-! ### Text -/

def NodeLine.text (n : NodeLine) : Text :=
  indent ++ n.name.text ++ n.shape.brackets.1 :: (n.label.text ++ [n.shape.brackets.2])

/-- An edge up to the space behind its source. -/
def EdgeLine.lead (e : EdgeLine) : Text := indent ++ e.source.text ++ " "

/-- The label of an edge behind its dashes, if there is one. -/
def EdgeLine.inset (e : EdgeLine) : Text :=
  match e.label? with
  | none => []
  | some label => "--" ++ label.text

/-- An edge up to the dashes before the head of its arrow. -/
def EdgeLine.shaft (e : EdgeLine) : Text := e.lead ++ e.inset

def EdgeLine.text (e : EdgeLine) : Text := e.shaft ++ "--> " ++ e.target.text

/-- The source of an edge is followed by a space. -/
theorem EdgeLine.exists_text_eq (e : EdgeLine) :
    ∃ rest, e.text = indent ++ e.source.text ++ (' ' : CodePoint) :: rest := by
  unfold EdgeLine.text EdgeLine.shaft EdgeLine.lead
  simp only [List.append_assoc]
  exact ⟨_, rfl⟩

namespace Diagram

def header (d : Diagram) : Text := "graph " ++ d.direction.code

def lines (d : Diagram) : List Text :=
  d.header :: d.nodes.map NodeLine.text ++
    if d.edges.isEmpty then [] else [] :: d.edges.map EdgeLine.text

def text (d : Diagram) : Text := joinWith "\n" d.lines

end Diagram

/-! ### The ids of a graph by their places -/

namespace Graph

def nodeIds (g : Graph) : List Text := g.nodes.map fun n => idKey n.id

def sources (g : Graph) : List Text := g.edges.map fun e => idKey e.source

def targets (g : Graph) : List Text := g.edges.map fun e => idKey e.target

end Graph

/-! ### The diagram of a graph -/

/-- The name that an id gets among the ids of a graph. -/
def nameAmong (ids : List Text) (id : Option Text) : Name :=
  ⟨(NameTable.ofIds ids).nameOf (idKey id), NameTable.isName_nameOf ids (idKey id)⟩

section
variable {fallback : Text} (hf : IsPlain fallback) (limit : Int)

def codeLabel (raw : Option Text) : CodeLabel :=
  ⟨renderLabel fallback limit raw, isWritten_renderLabel hf limit raw⟩

def Node.line (ids : List Text) (n : Node) : NodeLine where
  name := nameAmong ids n.id
  shape := n.shape.getD .box
  label := codeLabel hf limit n.label

def Edge.line (ids : List Text) (e : Edge) : EdgeLine where
  source := nameAmong ids e.source
  label? := if e.isLabelled then some (codeLabel hf limit e.label) else none
  target := nameAmong ids e.target

def Graph.diagram (direction : Option Text) (g : Graph) : Diagram where
  direction := Direction.ofText (direction.getD [])
  nodes := g.nodes.map (Node.line hf limit g.ids)
  edges := g.edges.map (Edge.line hf limit g.ids)

theorem Graph.map_name_diagram (direction : Option Text) (g : Graph) :
    (g.diagram hf limit direction).nodes.map (fun n => n.name.text) =
      g.nodeIds.map (NameTable.ofIds g.ids).nameOf := by
  rw [Graph.diagram, Graph.nodeIds, List.map_map, List.map_map]
  rfl

theorem Graph.map_source_diagram (direction : Option Text) (g : Graph) :
    (g.diagram hf limit direction).edges.map (fun e => e.source.text) =
      g.sources.map (NameTable.ofIds g.ids).nameOf := by
  rw [Graph.diagram, Graph.sources, List.map_map, List.map_map]
  rfl

theorem Graph.map_target_diagram (direction : Option Text) (g : Graph) :
    (g.diagram hf limit direction).edges.map (fun e => e.target.text) =
      g.targets.map (NameTable.ofIds g.ids).nameOf := by
  rw [Graph.diagram, Graph.targets, List.map_map, List.map_map]
  rfl

theorem Node.text_line (ids : List Text) (n : Node) :
    (n.line hf limit ids).text = n.render fallback limit (NameTable.ofIds ids) := rfl

theorem Edge.text_line (ids : List Text) (e : Edge) :
    (e.line hf limit ids).text = e.render fallback limit (NameTable.ofIds ids) := by
  unfold EdgeLine.text EdgeLine.shaft EdgeLine.lead EdgeLine.inset Edge.line Edge.render
  cases e.isLabelled with
  | false => simp [nameAmong]
  | true => simp [nameAmong, codeLabel]

theorem Graph.lines_diagram (direction : Option Text) (g : Graph) :
    (g.diagram hf limit direction).lines = g.renderLines fallback direction limit := by
  have hnodes : (g.diagram hf limit direction).nodes.map NodeLine.text =
      g.nodes.map (Node.render fallback limit (NameTable.ofIds g.ids)) := by
    rw [Graph.diagram, List.map_map]
    exact List.map_congr_left fun n _ => Node.text_line hf limit g.ids n
  have hedges : (g.diagram hf limit direction).edges.map EdgeLine.text =
      g.edges.map (Edge.render fallback limit (NameTable.ofIds g.ids)) := by
    rw [Graph.diagram, List.map_map]
    exact List.map_congr_left fun e _ => Edge.text_line hf limit g.ids e
  have hempty : (g.diagram hf limit direction).edges.isEmpty =
      (g.edges.map (Edge.render fallback limit (NameTable.ofIds g.ids))).isEmpty := by
    rw [← hedges, List.isEmpty_map]
  unfold Diagram.lines Graph.renderLines
  rw [hnodes, hedges, hempty]
  rfl

end

/-! ### Characters of the lines -/

theorem isLabelChar_of_isWord {c : CodePoint} (h : isWord c = true) : isLabelChar c = true := by
  have hstructural : isStructural c = false := by
    have hnone : ∀ d ∈ structuralChars, isWord d = false := by decide
    cases hs : isStructural c with
    | false => rfl
    | true =>
      rw [hnone c (List.contains_iff_mem.1 hs)] at h
      exact absurd h (by decide)
  have hlt : c ≠ '<' := ne_of_class h (by decide)
  have hgt : c ≠ '>' := ne_of_class h (by decide)
  simp [isLabelChar, hstructural, hlt, hgt, isBlank_of_isWord h]

theorem isLineEnd_of_isLabelChar {c : CodePoint} (h : isLabelChar c = true) :
    isLineEnd c = false := by
  cases hb : isBlank c with
  | false => exact isLineEnd_of_isBlank hb
  | true =>
    obtain rfl := eq_space_of_isBlank h hb
    decide

/-- The brackets of all shapes. -/
def isShapeBracket (c : CodePoint) : Bool :=
  [Shape.box, Shape.diamond, Shape.rounded].any fun s => c == s.brackets.1 || c == s.brackets.2

theorem isShapeBracket_brackets (s : Shape) :
    isShapeBracket s.brackets.1 = true ∧ isShapeBracket s.brackets.2 = true := by
  cases s <;> decide

theorem Name.isLabelChar (n : Name) {c : CodePoint} (h : c ∈ n.text) :
    Label.isLabelChar c = true :=
  isLabelChar_of_isWord (n.isName.isWord c h)

theorem isLabelChar_of_mem_indent {c : CodePoint} (h : c ∈ indent) : isLabelChar c = true := by
  have hall : ∀ d ∈ indent, isLabelChar d = true := by decide
  exact hall c h

theorem NodeLine.mem_text {n : NodeLine} {c : CodePoint} (h : c ∈ n.text) :
    Label.isLabelChar c = true ∨ isShapeBracket c = true := by
  simp only [NodeLine.text, List.mem_append, List.mem_cons, List.not_mem_nil, or_false] at h
  rcases h with (h | h) | h | h | h
  · exact Or.inl (isLabelChar_of_mem_indent h)
  · exact Or.inl (n.name.isLabelChar h)
  · exact Or.inr (h ▸ (isShapeBracket_brackets n.shape).1)
  · exact Or.inl (n.label.isWritten.chars c h)
  · exact Or.inr (h ▸ (isShapeBracket_brackets n.shape).2)

theorem EdgeLine.mem_shaft {e : EdgeLine} {c : CodePoint} (h : c ∈ e.shaft) :
    Label.isLabelChar c = true := by
  have hspace : ∀ d ∈ Text.ofString " ", Label.isLabelChar d = true := by decide
  have hdashes : ∀ d ∈ Text.ofString "--", Label.isLabelChar d = true := by decide
  simp only [EdgeLine.shaft, EdgeLine.lead, List.mem_append] at h
  rcases h with ((h | h) | h) | h
  · exact isLabelChar_of_mem_indent h
  · exact e.source.isLabelChar h
  · exact hspace c h
  · cases hlabel : e.label? with
    | none => simp [EdgeLine.inset, hlabel] at h
    | some label =>
      simp only [EdgeLine.inset, hlabel, List.mem_append] at h
      exact h.elim (hdashes c) (label.isWritten.chars c)

theorem EdgeLine.mem_text {e : EdgeLine} {c : CodePoint} (h : c ∈ e.text) :
    Label.isLabelChar c = true ∨ c = '>' := by
  have harrow : ∀ d ∈ Text.ofString "--> ", Label.isLabelChar d = true ∨ d = '>' := by decide
  simp only [EdgeLine.text, List.mem_append] at h
  rcases h with (h | h) | h
  · exact Or.inl (EdgeLine.mem_shaft h)
  · exact harrow c h
  · exact Or.inl (e.target.isLabelChar h)

/-! ### Heads of arrows -/

/-- The head of its arrow stands in the line of an edge once, between shaft and target. -/
theorem EdgeLine.text_eq (e : EdgeLine) :
    e.text = (e.shaft ++ "--") ++ ('>' : CodePoint) :: (" " ++ e.target.text) := by
  simp only [EdgeLine.text, List.append_assoc]
  rfl

theorem EdgeLine.head_notMem_shaft (e : EdgeLine) :
    CodePoint.ofChar '>' ∉ e.shaft ++ Text.ofString "--" := by
  intro h
  rcases List.mem_append.1 h with h | h
  · exact absurd (EdgeLine.mem_shaft h) (by decide)
  · exact absurd h (by decide)

theorem EdgeLine.head_notMem_target (e : EdgeLine) :
    CodePoint.ofChar '>' ∉ Text.ofString " " ++ e.target.text := by
  intro h
  rcases List.mem_append.1 h with h | h
  · exact absurd h (by decide)
  · exact absurd (e.target.isLabelChar h) (by decide)

namespace Diagram

theorem mem_header {d : Diagram} {c : CodePoint} (h : c ∈ d.header) :
    Label.isLabelChar c = true := by
  have hall : ∀ x : Direction, ∀ c ∈ Text.ofString "graph " ++ x.code,
      Label.isLabelChar c = true := by
    intro x
    cases x <;> decide
  exact hall d.direction c h

theorem mem_lines {d : Diagram} {l : Text} :
    l ∈ d.lines ↔ l = d.header ∨ (∃ n ∈ d.nodes, n.text = l) ∨
      (d.edges ≠ [] ∧ l = []) ∨ ∃ e ∈ d.edges, e.text = l := by
  cases hedges : d.edges with
  | nil => simp [lines, hedges]
  | cons e es =>
    have hedge : (∃ f ∈ e :: es, f.text = l) ↔ l = e.text ∨ ∃ f ∈ es, f.text = l := by
      rw [List.exists_mem_cons_iff, eq_comm]
    rw [hedge]
    simp [lines, hedges]

theorem mem_of_mem_lines {d : Diagram} {l : Text} {c : CodePoint} (hl : l ∈ d.lines)
    (hc : c ∈ l) :
    Label.isLabelChar c = true ∨ isShapeBracket c = true ∨ c = '>' := by
  rcases mem_lines.1 hl with rfl | ⟨n, -, rfl⟩ | ⟨-, rfl⟩ | ⟨e, -, rfl⟩
  · exact Or.inl (mem_header hc)
  · exact (NodeLine.mem_text hc).imp_right Or.inl
  · simp at hc
  · exact (EdgeLine.mem_text hc).imp_right Or.inr

theorem oneLine_of_mem_lines {d : Diagram} {l : Text} (hl : l ∈ d.lines) : OneLine l := by
  have hbracket : ∀ s ∈ [Shape.box, Shape.diamond, Shape.rounded],
      isLineEnd s.brackets.1 = false ∧ isLineEnd s.brackets.2 = false := by decide
  intro c hc
  rcases mem_of_mem_lines hl hc with h | h | rfl
  · exact isLineEnd_of_isLabelChar h
  · obtain ⟨s, hs, h⟩ := List.any_eq_true.1 h
    simp only [Bool.or_eq_true, beq_iff_eq] at h
    rcases h with rfl | rfl
    · exact (hbracket s hs).1
    · exact (hbracket s hs).2
  · decide

/-! ### Ends of the lines -/

theorem last_of_mem_lines {d : Diagram} {l : Text} (hl : l ∈ d.lines) :
    ∀ c ∈ l.getLast?, isBlank c = false ∧ c ≠ '\x60' := by
  intro c hc
  rcases mem_lines.1 hl with rfl | ⟨n, -, rfl⟩ | ⟨-, rfl⟩ | ⟨e, -, rfl⟩
  · have hall : ∀ x : Direction, ∀ c ∈ (Text.ofString "graph " ++ x.code).getLast?,
        isBlank c = false ∧ c ≠ '\x60' := by
      intro x
      cases x <;> decide
    exact hall d.direction c hc
  · have hall : ∀ s : Shape, isBlank s.brackets.2 = false ∧ s.brackets.2 ≠ '\x60' := by
      intro s
      cases s <;> decide
    obtain rfl : n.shape.brackets.2 = c := by simpa [NodeLine.text, List.getLast?_cons] using hc
    exact hall n.shape
  · simp at hc
  · have hlast : e.text.getLast? = e.target.text.getLast? := by
      rw [EdgeLine.text, List.getLast?_append_of_ne_nil _ e.target.isName.ne_nil]
    rw [hlast] at hc
    have hword : isWord c = true := e.target.isName.isWord c (List.mem_of_getLast? hc)
    exact ⟨isBlank_of_isWord hword, ne_of_class hword (by decide)⟩

theorem exists_last_line (d : Diagram) :
    ∃ l ∈ d.lines, l ≠ [] ∧ d.lines.getLast? = some l := by
  cases hedges : d.edges.getLast? with
  | none =>
    have hnil : d.edges = [] := List.getLast?_eq_none_iff.1 hedges
    cases hnodes : d.nodes.getLast? with
    | none =>
      have hnone : d.nodes = [] := List.getLast?_eq_none_iff.1 hnodes
      exact ⟨d.header, by simp [lines], by simp [header, Text.ofString],
        by simp [lines, hnil, hnone]⟩
    | some n =>
      have hn : n ∈ d.nodes := List.mem_of_getLast? hnodes
      exact ⟨n.text, mem_lines.2 (Or.inr (Or.inl ⟨n, hn, rfl⟩)), by simp [NodeLine.text],
        by simp [lines, hnil, List.getLast?_cons, hnodes]⟩
  | some e =>
    have he : e ∈ d.edges := List.mem_of_getLast? hedges
    have hne : d.edges.isEmpty = false := by
      cases hd : d.edges with
      | nil => rw [hd] at he; simp at he
      | cons _ _ => rfl
    exact ⟨e.text, mem_lines.2 (Or.inr (Or.inr (Or.inr ⟨e, he, rfl⟩))),
      by simp [EdgeLine.text, e.target.isName.ne_nil],
      by simp [lines, hne, List.getLast?_cons, hedges]⟩

theorem lines_text (d : Diagram) : Text.lines d.text = d.lines := by
  obtain ⟨l, -, hne, hlast⟩ := exists_last_line d
  refine lines_joinWith (fun l hl => oneLine_of_mem_lines hl) ?_
  rw [hlast]
  simpa using hne

/-! ### The whole text -/

theorem header_prefix_text (d : Diagram) : d.header <+: d.text :=
  prefix_joinWith_cons "\n" d.header _

theorem head?_text (d : Diagram) : d.text.head? = some (CodePoint.ofChar 'g') := by
  obtain ⟨rest, hrest⟩ := d.header_prefix_text
  rw [← hrest, header, List.append_assoc, List.head?_append]
  rfl

theorem last_text (d : Diagram) : ∀ c ∈ d.text.getLast?, isBlank c = false ∧ c ≠ '\x60' := by
  obtain ⟨l, hl, hne, hlast⟩ := exists_last_line d
  rw [text, getLast?_joinWith "\n" hlast hne]
  exact last_of_mem_lines hl

theorem trimmed_text (d : Diagram) : Trimmed d.text := by
  refine ⟨?_, fun c hc => (d.last_text c hc).1⟩
  intro c hc
  rw [head?_text] at hc
  obtain rfl : CodePoint.ofChar 'g' = c := by simpa using hc
  decide

theorem unfence_text (d : Diagram) : Code.unfence d.text = d.text := by
  refine Code.unfence_eq_self d.trimmed_text ?_ ?_
  · rw [head?_text]
    decide
  · intro hlast
    exact (d.last_text _ hlast).2 rfl

theorem mem_text {d : Diagram} {c : CodePoint} (h : c ∈ d.text) (hfeed : c ≠ '\n') :
    Label.isLabelChar c = true ∨ isShapeBracket c = true ∨ c = '>' := by
  obtain ⟨l, hl, hc⟩ := mem_joinWith h hfeed
  exact mem_of_mem_lines hl hc

theorem lt_notMem_text (d : Diagram) : CodePoint.ofChar '<' ∉ d.text := by
  intro h
  exact absurd (mem_text h (by decide)) (by decide)

theorem exists_edge_of_arrow {d : Diagram} {l s t : Text} (hl : l ∈ d.lines)
    (h : l = s ++ ('>' : CodePoint) :: t) : ∃ e ∈ d.edges, s = e.shaft ++ "--" := by
  have hgt : ¬ Label.isLabelChar '>' = true := by decide
  have hmem : CodePoint.ofChar '>' ∈ l := by
    rw [h]
    simp
  rcases mem_lines.1 hl with rfl | ⟨n, -, rfl⟩ | ⟨-, rfl⟩ | ⟨e, he, rfl⟩
  · exact absurd (mem_header hmem) hgt
  · exact absurd (NodeLine.mem_text hmem) (by decide)
  · simp at hmem
  · rw [e.text_eq] at h
    have hparts := (List.append_cons_inj_of_notMem e.head_notMem_shaft e.head_notMem_target).1 h
    exact ⟨e, he, hparts.1.symm⟩

end Diagram

section
variable {fallback : Text} (hf : IsPlain fallback)

/-- The code of a graph is the text of its diagram. -/
theorem Graph.compile_eq_text (direction : Option Text) (limit : Int) (g : Graph) :
    Graph.compile fallback direction limit (some g) = (g.diagram hf limit direction).text := by
  rw [Graph.compile_eq_joinWith, Diagram.text, Graph.lines_diagram]

end

end FlowDiagram
