import FlowDiagram.Proofs.Graph.Diagram
import Mathlib.Data.Set.Function

/-!
# The code of a graph determines its topology

The text of a diagram is read back in one way only: lines hold no line feed, a name ends at its first
character that is no word character, and the head of an arrow stands nowhere but in its arrow. Ids
are written by their names, which tell them apart, so that two graphs with the same code differ by
no more than a renaming of their ids.
-/

namespace FlowDiagram
open FlowDiagram.Text FlowDiagram.Label

/-! ### Lines -/

theorem Shape.brackets_fst_injective {s s' : Shape} (h : s.brackets.1 = s'.brackets.1) :
    s = s' := by
  revert h
  cases s <;> cases s' <;> decide

theorem Direction.code_injective {x y : Direction} (h : x.code = y.code) : x = y := by
  revert h
  cases x <;> cases y <;> decide

theorem NodeLine.text_injective : Function.Injective NodeLine.text := by
  intro n m h
  have hopening : ∀ s : Shape, isWord s.brackets.1 = false := by
    intro s
    cases s <;> decide
  simp only [NodeLine.text, List.append_assoc] at h
  obtain ⟨hname, hbracket, hrest⟩ := append_cons_inj_of_stops n.name.isName.isWord
    m.name.isName.isWord (hopening n.shape) (hopening m.shape) (List.append_cancel_left h)
  have hlabel : n.label.text = m.label.text := (List.append_inj' hrest rfl).1
  exact NodeLine.ext (Name.ext hname) (Shape.brackets_fst_injective hbracket)
    (CodeLabel.ext hlabel)

theorem EdgeLine.inset_injective {e f : EdgeLine} (h : e.inset = f.inset) :
    e.label? = f.label? := by
  unfold EdgeLine.inset at h
  cases he : e.label? with
  | none =>
    cases hf : f.label? with
    | none => rfl
    | some label => simp [he, hf, Text.ofString] at h
  | some label =>
    cases hf : f.label? with
    | none => simp [he, hf, Text.ofString] at h
    | some other =>
      simp only [he, hf] at h
      rw [CodeLabel.ext (List.append_cancel_left h)]

theorem EdgeLine.text_injective : Function.Injective EdgeLine.text := by
  intro e f h
  have hspace : isWord ' ' = false := by decide
  rw [e.text_eq, f.text_eq] at h
  obtain ⟨hdashes, -, htarget⟩ :=
    (List.append_cons_inj_of_notMem f.head_notMem_shaft f.head_notMem_target).1 h.symm
  have hshaft : e.shaft = f.shaft := (List.append_inj' hdashes rfl).1.symm
  simp only [EdgeLine.shaft, EdgeLine.lead, List.append_assoc] at hshaft
  obtain ⟨hsource, -, hinset⟩ := append_cons_inj_of_stops e.source.isName.isWord
    f.source.isName.isWord hspace hspace (List.append_cancel_left hshaft)
  exact EdgeLine.ext (Name.ext hsource) (EdgeLine.inset_injective hinset)
    (Name.ext (List.append_cancel_left htarget).symm)

/-! ### Diagrams -/

namespace Diagram

/-- The lines of the edges, behind an empty one if there are any. -/
def edgeLines (d : Diagram) : List Text :=
  if d.edges.isEmpty then [] else [] :: d.edges.map EdgeLine.text

theorem edgeLines_injective {d k : Diagram} (h : d.edgeLines = k.edgeLines) :
    d.edges = k.edges := by
  refine EdgeLine.text_injective.list_map ?_
  unfold edgeLines at h
  cases hd : d.edges with
  | nil =>
    cases hk : k.edges with
    | nil => rfl
    | cons e es => simp [hd, hk] at h
  | cons e es =>
    cases hk : k.edges with
    | nil => simp [hd, hk] at h
    | cons f fs => simpa [hd, hk] using h

/-- The first empty line ends the nodes. -/
theorem takeWhile_lines (d : Diagram) :
    (d.nodes.map NodeLine.text ++ d.edgeLines).takeWhile (fun l => !l.isEmpty) =
      d.nodes.map NodeLine.text := by
  have hnodes : ∀ l ∈ d.nodes.map NodeLine.text, (!l.isEmpty) = true := by
    intro l hl
    obtain ⟨n, -, rfl⟩ := List.mem_map.1 hl
    simp [NodeLine.text]
  rw [List.takeWhile_append_of_pos hnodes, edgeLines]
  cases d.edges.isEmpty with
  | true => simp
  | false => simp

theorem text_injective : Function.Injective text := by
  intro d k h
  have hlines : d.lines = k.lines := by
    rw [← lines_text, ← lines_text, h]
  obtain ⟨hheader, hrest⟩ : d.header = k.header ∧ d.nodes.map NodeLine.text ++ d.edgeLines =
      k.nodes.map NodeLine.text ++ k.edgeLines := List.cons.inj hlines
  have hnodes : d.nodes.map NodeLine.text = k.nodes.map NodeLine.text := by
    rw [← takeWhile_lines d, ← takeWhile_lines k]
    exact congrArg _ hrest
  have hedges : d.edgeLines = k.edgeLines := by
    rw [hnodes] at hrest
    exact List.append_cancel_left hrest
  exact Diagram.ext (Direction.code_injective (List.append_cancel_left hheader))
    (NodeLine.text_injective.list_map hnodes) (edgeLines_injective hedges)

end Diagram

/-! ### Renaming of ids -/

section
variable {f k : Text → Text} {ids ids' : List Text}

/-- The id in a list to which one function gives the name that the other gives to an id. -/
noncomputable def translation (f k : Text → Text) (ids' : List Text) : Text → Text :=
  Function.invFunOn k {id | id ∈ ids'} ∘ f

theorem bijOn_translation (hf : Set.InjOn f {id | id ∈ ids}) (hk : Set.InjOn k {id | id ∈ ids'})
    (h : ids.map f = ids'.map k) :
    Set.BijOn (translation f k ids') {id | id ∈ ids} {id | id ∈ ids'} := by
  have himage : f '' {id | id ∈ ids} = k '' {id | id ∈ ids'} := by
    ext name
    have hmem : name ∈ ids.map f ↔ name ∈ ids'.map k := by rw [h]
    exact (List.mem_map.symm.trans hmem).trans List.mem_map
  have hbij : Set.BijOn f {id | id ∈ ids} (k '' {id | id ∈ ids'}) := himage ▸ hf.bijOn_image
  have hbij' : Set.BijOn k {id | id ∈ ids'} (k '' {id | id ∈ ids'}) := hk.bijOn_image
  exact (hbij'.symm hbij'.invOn_invFunOn.symm).comp hbij

/-- Ids in the same places get their names by the same renaming. -/
theorem eq_map_translation {l l' : List Text} (hk : Set.InjOn k {id | id ∈ ids'}) (hl' : l' ⊆ ids')
    (h : l.map f = l'.map k) : l' = l.map (translation f k ids') := by
  have hinv : Set.LeftInvOn (Function.invFunOn k {id | id ∈ ids'}) k {id | id ∈ ids'} :=
    hk.leftInvOn_invFunOn
  have hback : l'.map (Function.invFunOn k {id | id ∈ ids'} ∘ k) = l'.map id :=
    List.map_congr_left fun id hid => hinv (hl' hid)
  calc l' = l'.map id := (List.map_id l').symm
    _ = (l'.map k).map (Function.invFunOn k {id | id ∈ ids'}) := by rw [List.map_map, hback]
    _ = l.map (translation f k ids') := by rw [← h, List.map_map]; rfl

end

/-! ### Graphs with the same code -/

/-- The label that an edge is written with, if it is labelled. -/
def Edge.writtenLabel? (fallback : Text) (limit : Int) (e : Edge) : Option Text :=
  if e.isLabelled then some (renderLabel fallback limit e.label) else none

/-- Two graphs, each with a limit for its labels, that differ in nothing but their ids, and in these
by the renaming `s`. -/
structure Graph.SameButIds (fallback : Text) (limit limit' : Int) (g h : Graph)
    (s : Text → Text) : Prop where
  shapes : h.nodes.map (fun n => n.shape.getD .box) = g.nodes.map fun n => n.shape.getD .box
  nodeLabels : h.nodes.map (fun n => renderLabel fallback limit' n.label) =
    g.nodes.map fun n => renderLabel fallback limit n.label
  edgeLabels : h.edges.map (Edge.writtenLabel? fallback limit') =
    g.edges.map (Edge.writtenLabel? fallback limit)
  bijOn : Set.BijOn s {id | id ∈ g.ids} {id | id ∈ h.ids}
  nodeIds : h.nodeIds = g.nodeIds.map s
  sources : h.sources = g.sources.map s
  targets : h.targets = g.targets.map s

section
variable {fallback : Text} (hf : IsPlain fallback)

theorem Edge.map_text_line (limit : Int) (ids : List Text) (e : Edge) :
    (e.line hf limit ids).label?.map CodeLabel.text = e.writtenLabel? fallback limit := by
  unfold Edge.line Edge.writtenLabel?
  cases e.isLabelled with
  | false => rfl
  | true => rfl

theorem Graph.map_label_diagram (direction : Option Text) (limit : Int) (g : Graph) :
    (g.diagram hf limit direction).edges.map (fun e => e.label?.map CodeLabel.text) =
      g.edges.map (Edge.writtenLabel? fallback limit) := by
  rw [Graph.diagram, List.map_map]
  exact List.map_congr_left fun e _ => Edge.map_text_line hf limit g.ids e

theorem Graph.nodeIds_subset (g : Graph) : g.nodeIds ⊆ g.ids := List.subset_append_left _ _

theorem Graph.sources_subset (g : Graph) : g.sources ⊆ g.ids := by
  intro id h
  obtain ⟨e, he, rfl⟩ := List.mem_map.1 h
  exact List.mem_append_right _ (List.mem_flatMap.2 ⟨e, he, by simp⟩)

theorem Graph.targets_subset (g : Graph) : g.targets ⊆ g.ids := by
  intro id h
  obtain ⟨e, he, rfl⟩ := List.mem_map.1 h
  exact List.mem_append_right _ (List.mem_flatMap.2 ⟨e, he, by simp⟩)

/-- The names in a diagram in the order in which they are written. -/
def Diagram.names (d : Diagram) : List Text :=
  d.nodes.map (fun n => n.name.text) ++ d.edges.flatMap fun e => [e.source.text, e.target.text]

theorem Graph.names_diagram (direction : Option Text) (limit : Int) (g : Graph) :
    (g.diagram hf limit direction).names = NameTable.namesOf g.ids := by
  simp only [Diagram.names, NameTable.namesOf, Graph.diagram, Graph.ids, List.map_append,
    List.map_map, List.flatMap_map, List.map_flatMap]
  rfl

theorem Graph.exists_sameButIds {direction direction' : Option Text} {limit limit' : Int}
    {g h : Graph} (heq : g.diagram hf limit direction = h.diagram hf limit' direction') :
    ∃ s, g.SameButIds fallback limit limit' h s := by
  have hnames := congrArg Diagram.names heq
  have hnodeIds := congrArg (fun d => d.nodes.map fun n => n.name.text) heq
  have hsources := congrArg (fun d => d.edges.map fun e => e.source.text) heq
  have htargets := congrArg (fun d => d.edges.map fun e => e.target.text) heq
  have hshapes := congrArg (fun d => d.nodes.map NodeLine.shape) heq
  have hnodeLabels := congrArg (fun d => d.nodes.map fun n => n.label.text) heq
  have hedgeLabels := congrArg (fun d => d.edges.map fun e => e.label?.map CodeLabel.text) heq
  simp only [Graph.names_diagram, Graph.map_name_diagram, Graph.map_source_diagram,
    Graph.map_target_diagram, Graph.map_label_diagram] at hnames hnodeIds hsources htargets hedgeLabels
  simp only [Graph.diagram, List.map_map] at hshapes hnodeLabels
  have hg := NameTable.nameOf_injOn g.ids
  have hh := NameTable.nameOf_injOn h.ids
  refine ⟨translation (NameTable.ofIds g.ids).nameOf (NameTable.ofIds h.ids).nameOf h.ids, ?_⟩
  exact
    { shapes := hshapes.symm
      nodeLabels := hnodeLabels.symm
      edgeLabels := hedgeLabels.symm
      bijOn := bijOn_translation hg hh hnames
      nodeIds := eq_map_translation hh h.nodeIds_subset hnodeIds
      sources := eq_map_translation hh h.sources_subset hsources
      targets := eq_map_translation hh h.targets_subset htargets }

end

/-- An end of an edge has the name of a node only if it is its id. -/
theorem Graph.nameOf_eq_nameOf_iff {g : Graph} {id : Text} {n : Node} (hid : id ∈ g.ids)
    (hn : n ∈ g.nodes) :
    (NameTable.ofIds g.ids).nameOf id = (NameTable.ofIds g.ids).nameOf (idKey n.id) ↔
      id = idKey n.id :=
  (NameTable.nameOf_injOn g.ids).eq_iff hid (g.nodeIds_subset (List.mem_map_of_mem hn))

/-- The code of a graph determines its direction, its shapes and labels, and which of its ids are the
same. -/
theorem Graph.topology_of_compile_eq {direction direction' : Option Text} {limit limit' : Int}
    {g h : Graph}
    (heq : Graph.compile Settings.standard.fallbackLabel direction limit (some g) =
      Graph.compile Settings.standard.fallbackLabel direction' limit' (some h)) :
    Direction.ofText (direction.getD []) = Direction.ofText (direction'.getD []) ∧
      g.nodes.length = h.nodes.length ∧ g.edges.length = h.edges.length ∧
      (∃ s, g.SameButIds Settings.standard.fallbackLabel limit limit' h s) ∧
      ∀ e ∈ g.edges, ∀ n ∈ g.nodes, ∀ id ∈ [idKey e.source, idKey e.target],
        ((NameTable.ofIds g.ids).nameOf id = (NameTable.ofIds g.ids).nameOf (idKey n.id) ↔
          id = idKey n.id) := by
  have hdiagram : g.diagram isPlain_standard limit direction =
      h.diagram isPlain_standard limit' direction' := by
    refine Diagram.text_injective ?_
    rw [← Graph.compile_eq_text, ← Graph.compile_eq_text, heq]
  have hnodes := congrArg (fun d => d.nodes.length) hdiagram
  have hedges := congrArg (fun d => d.edges.length) hdiagram
  simp only [Graph.diagram, List.length_map] at hnodes hedges
  refine ⟨congrArg Diagram.direction hdiagram, hnodes, hedges,
    Graph.exists_sameButIds isPlain_standard hdiagram, ?_⟩
  intro e he n hn id hid
  have hends : id ∈ g.ids := List.mem_append_right _ (List.mem_flatMap.2 ⟨e, he, hid⟩)
  exact Graph.nameOf_eq_nameOf_iff hends hn

/-- Two ids that get the same name when each stands alone. -/
theorem Graph.topology_of_compile_eq_space_hyphen :
    ∃ s, (Graph.mk [⟨some "a b", some "One", some .rounded⟩]
        [⟨some "a b", none, some "-- x"⟩]).SameButIds Settings.standard.fallbackLabel 0 9
      (Graph.mk [⟨some "a-b", some "One", some .rounded⟩] [⟨some "a-b", some "", some "-- x "⟩])
      s := by
  have heq : Graph.compile Settings.standard.fallbackLabel (some "lr") 0
        (some ⟨[⟨some "a b", some "One", some .rounded⟩], [⟨some "a b", none, some "-- x"⟩]⟩) =
      Graph.compile Settings.standard.fallbackLabel (some "LR") 9
        (some ⟨[⟨some "a-b", some "One", some .rounded⟩],
          [⟨some "a-b", some "", some "-- x "⟩]⟩) := by decide +kernel
  exact (Graph.topology_of_compile_eq heq).2.2.2.1

end FlowDiagram
