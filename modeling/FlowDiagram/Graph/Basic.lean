import FlowDiagram.Text.Basic

/-!
# Graphs

A graph is a list of nodes and a list of edges between ids. Ids and labels may be missing, an edge
may end at an id that no node has, and two nodes may share an id: a graph is taken as it comes.
-/

namespace FlowDiagram

inductive Shape
  | box
  | diamond
  | rounded
  deriving DecidableEq

structure Node where
  id : Option Text
  label : Option Text
  /-- Missing where the outline is none that the library knows. -/
  shape : Option Shape
  deriving DecidableEq

structure Edge where
  source : Option Text
  target : Option Text
  label : Option Text
  deriving DecidableEq

structure Graph where
  nodes : List Node
  edges : List Edge
  deriving DecidableEq

namespace Shape

def name : Shape → Text
  | box => "box"
  | diamond => "diamond"
  | rounded => "rounded"

def ofName? (name : Text) : Option Shape :=
  [box, diamond, rounded].find? fun s => s.name == name

end Shape

/-- A missing id counts as the empty one. -/
def idKey (id : Option Text) : Text := id.getD []

namespace Graph

/-- Every id of the graph in the order in which the diagram writes them: those of the nodes, then
source and target of each edge. -/
def ids (g : Graph) : List Text :=
  g.nodes.map (fun n => idKey n.id) ++
    g.edges.flatMap fun e => [idKey e.source, idKey e.target]

end Graph

end FlowDiagram
