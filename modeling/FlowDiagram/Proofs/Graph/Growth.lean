import FlowDiagram.Graph.Render
import FlowDiagram.Proofs.Graph.Names
import FlowDiagram.Proofs.Text.Class
import FlowDiagram.Proofs.Text.Lines
import FlowDiagram.Proofs.Text.Trim

/-!
# Diagrams that grow

The lines of a diagram can be written in one pass: every id gets its name when it first comes, and
every line is written with the names given by then. No name and no line is taken back, so a graph
that only has more at its end has a diagram that only has more at its end. This also holds of the
texts, because a diagram never ends in a blank that could be trimmed.
-/

namespace FlowDiagram
open FlowDiagram.Text

/-! ### Names that stay -/

/-- Every name that the table has given is still the name of its id later. -/
def NameTable.Extends (later table : NameTable) : Prop :=
  ∀ id name, table.nameOf? id = some name → later.nameOf? id = some name

namespace NameTable

theorem Extends.refl (table : NameTable) : table.Extends table := fun _ _ h => h

theorem Extends.trans {a b c : NameTable} (hba : b.Extends a) (hcb : c.Extends b) :
    c.Extends a :=
  fun id name h => hcb id name (hba id name h)

theorem extends_foldl_add (table : NameTable) (ids : List Text) :
    (ids.foldl add table).Extends table :=
  fun _ _ h => nameOf?_foldl_of_some h ids

theorem Extends.nameOf_eq {ids : List Text} {table : NameTable} {id : Text}
    (h : table.Extends (ofIds ids)) (hid : id ∈ ids) :
    table.nameOf id = (ofIds ids).nameOf id := by
  obtain ⟨name, hname⟩ := Option.isSome_iff_exists.1 (isSome_nameOf?_foldl empty hid)
  have hgiven : (ofIds ids).nameOf? id = some name := hname
  rw [nameOf_of_some hgiven, nameOf_of_some (h id name hgiven)]

end NameTable

/-! ### Items -/

/-- What stands on a line behind the header. -/
inductive Item
  | node (n : Node)
  | gap
  | edge (e : Edge)

namespace Item

/-- The ids in the order in which the line names them. -/
def ids : Item → List Text
  | node n => [idKey n.id]
  | gap => []
  | edge e => [idKey e.source, idKey e.target]

def render (fallback : Text) (limit : Int) (names : NameTable) : Item → Text
  | node n => n.render fallback limit names
  | gap => []
  | edge e => e.render fallback limit names

/-- A line depends on the names of its own ids only. -/
theorem render_congr {item : Item} {names others : NameTable} (fallback : Text) (limit : Int)
    (h : ∀ id ∈ item.ids, names.nameOf id = others.nameOf id) :
    item.render fallback limit names = item.render fallback limit others := by
  cases item with
  | node n =>
    have hid := h (idKey n.id) (by simp [ids])
    simp only [render, Node.render, hid]
  | gap => rfl
  | edge e =>
    have hsource := h (idKey e.source) (by simp [ids])
    have htarget := h (idKey e.target) (by simp [ids])
    simp only [render, Edge.render, hsource, htarget]

end Item

namespace Graph

/-- The gap comes only before edges. -/
def items (g : Graph) : List Item :=
  g.nodes.map .node ++ if g.edges.isEmpty then [] else .gap :: g.edges.map .edge

theorem ids_eq_flatMap (g : Graph) : g.ids = g.items.flatMap Item.ids := by
  have hnodes : (g.nodes.map Item.node).flatMap Item.ids = g.nodes.map fun n => idKey n.id := by
    rw [List.flatMap_map]
    exact List.flatMap_pure_eq_map _ _
  have hedges : (g.edges.map Item.edge).flatMap Item.ids =
      g.edges.flatMap fun e => [idKey e.source, idKey e.target] := List.flatMap_map _ _ _
  rw [ids, items, List.flatMap_append, hnodes]
  cases h : g.edges with
  | nil => rfl
  | cons e es =>
    rw [h] at hedges
    rw [← hedges]
    rfl

theorem renderLines_eq_map (fallback : Text) (direction : Option Text) (limit : Int) (g : Graph) :
    g.renderLines fallback direction limit =
      header direction :: g.items.map (Item.render fallback limit (NameTable.ofIds g.ids)) := by
  rw [renderLines, items, List.map_append, List.map_map]
  cases h : g.edges with
  | nil => rfl
  | cons e es =>
    simp [Item.render, Function.comp_def]

end Graph

/-! ### Drafts -/

/-- A diagram on its way: the names that have been given, and the lines that have been written. -/
structure Draft where
  names : NameTable
  lines : List Text

namespace Draft

/-- Nothing but the header is there. -/
def begun (direction : Option Text) : Draft := ⟨.empty, [Graph.header direction]⟩

/-- The ids of the item get their names, and its line is written with them. -/
def add (fallback : Text) (limit : Int) (d : Draft) (item : Item) : Draft :=
  let names := item.ids.foldl NameTable.add d.names
  ⟨names, d.lines ++ [item.render fallback limit names]⟩

/-- The later draft has every name and every line of the other. -/
structure Extends (later d : Draft) : Prop where
  names : later.names.Extends d.names
  lines : d.lines <+: later.lines

theorem extends_add (fallback : Text) (limit : Int) (d : Draft) (item : Item) :
    (d.add fallback limit item).Extends d :=
  ⟨NameTable.extends_foldl_add d.names item.ids, List.prefix_append d.lines _⟩

theorem extends_foldl_add (fallback : Text) (limit : Int) (d : Draft) (items : List Item) :
    (items.foldl (add fallback limit) d).Extends d := by
  induction items generalizing d with
  | nil => exact ⟨.refl _, List.prefix_rfl⟩
  | cons item items ih =>
    have hstep := extends_add fallback limit d item
    have hrest := ih (d.add fallback limit item)
    exact ⟨hstep.names.trans hrest.names, hstep.lines.trans hrest.lines⟩

/-- The draft after a graph has been written item by item. -/
def ofItems (fallback : Text) (direction : Option Text) (limit : Int) (items : List Item) : Draft :=
  items.foldl (add fallback limit) (begun direction)

theorem ofItems_append (fallback : Text) (direction : Option Text) (limit : Int)
    (items more : List Item) :
    ofItems fallback direction limit (items ++ more) =
      more.foldl (add fallback limit) (ofItems fallback direction limit items) :=
  List.foldl_append

theorem ofItems_eq (fallback : Text) (direction : Option Text) (limit : Int) (items : List Item) :
    ofItems fallback direction limit items =
      ⟨.ofIds (items.flatMap Item.ids), Graph.header direction ::
        items.map (Item.render fallback limit (.ofIds (items.flatMap Item.ids)))⟩ := by
  induction items using List.reverseRecOn with
  | nil => rfl
  | append_singleton items item ih =>
    have hnames : item.ids.foldl NameTable.add (.ofIds (items.flatMap Item.ids)) =
        .ofIds ((items ++ [item]).flatMap Item.ids) := by
      simp [NameTable.ofIds, List.flatMap_append]
    have hlater : (NameTable.ofIds ((items ++ [item]).flatMap Item.ids)).Extends
        (.ofIds (items.flatMap Item.ids)) := by
      rw [← hnames]
      exact NameTable.extends_foldl_add _ item.ids
    -- The lines before have been written with fewer names, but all of theirs were there.
    have hlines : items.map (Item.render fallback limit (.ofIds (items.flatMap Item.ids))) =
        items.map (Item.render fallback limit (.ofIds ((items ++ [item]).flatMap Item.ids))) := by
      refine List.map_congr_left fun other hother => ?_
      refine Item.render_congr fallback limit fun id hid => (hlater.nameOf_eq ?_).symm
      exact List.mem_flatMap.2 ⟨other, hother, hid⟩
    rw [ofItems_append, ih, List.foldl_cons, List.foldl_nil, add]
    simp only [hnames, hlines, List.map_append, List.map_cons, List.map_nil, List.cons_append]

theorem extends_ofItems (fallback : Text) (direction : Option Text) (limit : Int)
    {items later : List Item} (h : items <+: later) :
    (ofItems fallback direction limit later).Extends (ofItems fallback direction limit items) := by
  obtain ⟨more, rfl⟩ := h
  rw [ofItems_append]
  exact extends_foldl_add fallback limit _ more

end Draft

/-- The lines of a diagram are written one after the other, with the names given by then. -/
theorem Graph.ofItems_items (fallback : Text) (direction : Option Text) (limit : Int) (g : Graph) :
    Draft.ofItems fallback direction limit g.items =
      ⟨.ofIds g.ids, g.renderLines fallback direction limit⟩ := by
  rw [Draft.ofItems_eq, renderLines_eq_map, ids_eq_flatMap]

/-! ### The end of a diagram -/

/-- A line with something on it that no trimming takes away at its end. -/
structure EndsNonBlank (l : Text) : Prop where
  ne_nil : l ≠ []
  last : ∀ c ∈ l.getLast?, isBlank c = false

theorem Graph.endsNonBlank_header (direction : Option Text) : EndsNonBlank (header direction) := by
  have hlast : ∀ d : Direction, ∀ c ∈ (Text.ofString "graph " ++ d.code).getLast?,
      isBlank c = false := by
    intro d
    cases d <;> decide
  exact ⟨by simp [header, Text.ofString], hlast _⟩

theorem Node.endsNonBlank_render (n : Node) (fallback : Text) (limit : Int) (names : NameTable) :
    EndsNonBlank (n.render fallback limit names) := by
  have hclosing : ∀ s : Shape, isBlank s.brackets.2 = false := by
    intro s
    cases s <;> decide
  refine ⟨by simp [render], fun c hc => ?_⟩
  obtain rfl : (n.shape.getD .box).brackets.2 = c := by
    simpa [render, List.getLast?_cons] using hc
  exact hclosing _

/-- The line of an edge ends in a name, whatever its label is. -/
theorem Edge.endsNonBlank_render (e : Edge) (fallback : Text) (limit : Int) (ids : List Text) :
    EndsNonBlank (e.render fallback limit (.ofIds ids)) := by
  have hname := NameTable.isName_nameOf ids (idKey e.target)
  refine ⟨by simp [render, hname.ne_nil], fun c hc => ?_⟩
  rw [render, List.getLast?_append_of_ne_nil _ hname.ne_nil] at hc
  exact isBlank_of_isWord (hname.isWord c (List.mem_of_getLast? hc))

theorem Item.endsNonBlank_render {item : Item} (h : item ≠ .gap) (fallback : Text) (limit : Int)
    (ids : List Text) : EndsNonBlank (item.render fallback limit (.ofIds ids)) := by
  cases item with
  | node n => exact n.endsNonBlank_render fallback limit _
  | gap => contradiction
  | edge e => exact e.endsNonBlank_render fallback limit ids

namespace Graph

theorem ne_gap_of_mem_getLast? {g : Graph} {item : Item} (h : item ∈ g.items.getLast?) :
    item ≠ .gap := by
  rintro rfl
  cases hedges : g.edges with
  | nil =>
    have hmem : Item.gap ∈ g.nodes.map Item.node := by
      simpa [items, hedges] using List.mem_of_getLast? h
    simp at hmem
  | cons e es =>
    have hlast : g.items.getLast? = ((e :: es).map Item.edge).getLast? := by
      simp [items, hedges, List.getLast?_append, List.getLast?_cons]
    rw [hlast] at h
    simpa using List.mem_of_getLast? h

theorem exists_getLast?_renderLines (fallback : Text) (direction : Option Text) (limit : Int)
    (g : Graph) :
    ∃ l, (g.renderLines fallback direction limit).getLast? = some l ∧ EndsNonBlank l := by
  have hlast : (g.renderLines fallback direction limit).getLast? =
      some ((g.items.getLast?.map (Item.render fallback limit (.ofIds g.ids))).getD
        (header direction)) := by
    rw [renderLines_eq_map, List.getLast?_cons, List.getLast?_map]
  refine ⟨_, hlast, ?_⟩
  cases hitem : g.items.getLast? with
  | none => exact endsNonBlank_header direction
  | some item => exact Item.endsNonBlank_render (ne_gap_of_mem_getLast? hitem) fallback limit g.ids

/-- A diagram never ends in blanks, so that none are taken off. -/
theorem compile_eq_joinWith (fallback : Text) (direction : Option Text) (limit : Int) (g : Graph) :
    compile fallback direction limit (some g) =
      joinWith "\n" (g.renderLines fallback direction limit) := by
  obtain ⟨l, hlast, hend⟩ := exists_getLast?_renderLines fallback direction limit g
  refine trimRight_eq_self fun c hc => ?_
  rw [getLast?_joinWith "\n" hlast hend.ne_nil] at hc
  exact hend.last c hc

/-! ### Growth -/

/-- What a graph leaves as it is in the diagram of an earlier one. -/
structure Keeps (fallback : Text) (direction : Option Text) (limit : Int) (later g : Graph) :
    Prop where
  name : ∀ id ∈ g.ids, (NameTable.ofIds later.ids).nameOf id = (NameTable.ofIds g.ids).nameOf id
  node : ∀ n ∈ g.nodes, n.render fallback limit (.ofIds later.ids) =
    n.render fallback limit (.ofIds g.ids)
  edge : ∀ e ∈ g.edges, e.render fallback limit (.ofIds later.ids) =
    e.render fallback limit (.ofIds g.ids)
  lines : g.renderLines fallback direction limit <+: later.renderLines fallback direction limit
  text : compile fallback direction limit (some g) <+:
    compile fallback direction limit (some later)

theorem keeps_of_isPrefix {g later : Graph} (h : g.items <+: later.items) (fallback : Text)
    (direction : Option Text) (limit : Int) : Keeps fallback direction limit later g := by
  have hext := Draft.extends_ofItems fallback direction limit h
  rw [ofItems_items, ofItems_items] at hext
  have hname : ∀ id ∈ g.ids,
      (NameTable.ofIds later.ids).nameOf id = (NameTable.ofIds g.ids).nameOf id :=
    fun id hid => hext.names.nameOf_eq hid
  have hitem : ∀ item ∈ g.items, item.render fallback limit (.ofIds later.ids) =
      item.render fallback limit (.ofIds g.ids) := by
    intro item hitem
    refine Item.render_congr fallback limit fun id hid => hname id ?_
    rw [ids_eq_flatMap]
    exact List.mem_flatMap.2 ⟨item, hitem, hid⟩
  refine ⟨hname, fun n hn => ?_, fun e he => ?_, hext.lines, ?_⟩
  · exact hitem (.node n) (by simp [items, hn])
  · have hne : g.edges ≠ [] := List.ne_nil_of_mem he
    exact hitem (.edge e) (by simp [items, hne, he])
  · rw [compile_eq_joinWith, compile_eq_joinWith]
    exact prefix_joinWith "\n" hext.lines

theorem items_prefix_append_edges (nodes : List Node) (edges more : List Edge) :
    items ⟨nodes, edges⟩ <+: items ⟨nodes, edges ++ more⟩ := by
  cases edges with
  | nil => simp [items]
  | cons e es => simp [items]

theorem items_prefix_append_nodes (nodes more : List Node) :
    items ⟨nodes, []⟩ <+: items ⟨nodes ++ more, []⟩ := by
  simp [items]

/-- More edges, or more nodes where there are no edges, leave the diagram that was there as it is,
and nothing is ever trimmed from the end of one. -/
theorem compile_append_stable (fallback : Text) (direction : Option Text) (limit : Int)
    (nodes moreNodes : List Node) (edges moreEdges : List Edge) :
    Keeps fallback direction limit ⟨nodes, edges ++ moreEdges⟩ ⟨nodes, edges⟩ ∧
      Keeps fallback direction limit ⟨nodes ++ moreNodes, []⟩ ⟨nodes, []⟩ ∧
      ∀ g : Graph, compile fallback direction limit (some g) =
        joinWith "\n" (g.renderLines fallback direction limit) :=
  ⟨keeps_of_isPrefix (items_prefix_append_edges nodes edges moreEdges) fallback direction limit,
    keeps_of_isPrefix (items_prefix_append_nodes nodes moreNodes) fallback direction limit,
    compile_eq_joinWith fallback direction limit⟩

/-- A node comes before the edges, and may even take the name that one of them had. -/
example :
    let e : Edge := ⟨some "x y", some "x y", none⟩
    let n : Node := ⟨some "x-y", none, none⟩
    compile "Step" none 80 (some ⟨[], [e]⟩) = "graph TD\n\n    x_y --> x_y" ∧
      compile "Step" none 80 (some ⟨[n], [e]⟩) =
        "graph TD\n    x_y[Step]\n\n    x_y_2 --> x_y_2" := by
  decide +kernel

end Graph

end FlowDiagram
