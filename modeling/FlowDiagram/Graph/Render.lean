import FlowDiagram.Graph.Basic
import FlowDiagram.Graph.Names
import FlowDiagram.Label.Basic
import FlowDiagram.Text.Upper

/-!
# Graphs as diagram code

A graph is written as a header with the direction, one line for each node, and after an empty line
one for each edge, all in the order of the graph. Labels hold no character that has a meaning in
code, and each id has its own name.
-/

namespace FlowDiagram
open FlowDiagram.Text

/-! ### Directions -/

inductive Direction
  | topDown
  | topBottom
  | leftRight
  | rightLeft
  | bottomTop
  deriving DecidableEq

namespace Direction

def code : Direction → Text
  | topDown => "TD"
  | topBottom => "TB"
  | leftRight => "LR"
  | rightLeft => "RL"
  | bottomTop => "BT"

/-- The direction that a text names in either case; downward if it names none. -/
def ofText (t : Text) : Direction :=
  ([topDown, topBottom, leftRight, rightLeft, bottomTop].find? fun d =>
    d.code == toUpper t).getD topDown

end Direction

/-! ### Lines -/

def indent : Text := "    "

def Shape.brackets : Shape → CodePoint × CodePoint
  | box => ('[', ']')
  | diamond => ('\x7b', '\x7d')
  | rounded => ('(', ')')

/-- Angle brackets make tags and arrows, so a label has spaces in their place. -/
def withoutAngles (t : Text) : Text :=
  t.map fun (c : CodePoint) => if c == '<' || c == '>' then CodePoint.ofChar ' ' else c

def renderLabel (fallback : Text) (limit : Int) (raw : Option Text) : Text :=
  Label.shorten limit (Label.sanitize fallback (withoutAngles (raw.getD [])))

/-- The line of a node: its name, and its label in the brackets of its shape. -/
def Node.render (fallback : Text) (limit : Int) (names : NameTable) (n : Node) : Text :=
  let brackets := (n.shape.getD .box).brackets
  indent ++ names.nameOf (idKey n.id) ++
    brackets.1 :: (renderLabel fallback limit n.label ++ [brackets.2])

/-- An edge is written with a label unless its label is missing or blank. -/
def Edge.isLabelled (e : Edge) : Bool := !allBlank (e.label.getD [])

/-- The line of an edge: the names of its ends, and the arrow between them. -/
def Edge.render (fallback : Text) (limit : Int) (names : NameTable) (e : Edge) : Text :=
  let arrow : Text :=
    if e.isLabelled then "--" ++ renderLabel fallback limit e.label ++ "--> "
    else "--> "
  indent ++ names.nameOf (idKey e.source) ++ " " ++ arrow ++ names.nameOf (idKey e.target)

/-! ### Diagrams -/

/-- The code that stands for a graph that is missing. -/
def placeholder : Text := "graph TD; error[Diagram unavailable]"

namespace Graph

def header (direction : Option Text) : Text :=
  "graph " ++ (Direction.ofText (direction.getD [])).code

/-- The lines of the diagram. The empty line comes only before edges. -/
def renderLines (fallback : Text) (direction : Option Text) (limit : Int) (g : Graph) :
    List Text :=
  let names := NameTable.ofIds g.ids
  let edgeLines := g.edges.map (Edge.render fallback limit names)
  header direction :: g.nodes.map (Node.render fallback limit names) ++
    if edgeLines.isEmpty then [] else [] :: edgeLines

/-- The code for a graph, with the fallback for empty labels, the direction, and the limit for
labels. -/
def compile (fallback : Text) (direction : Option Text) (limit : Int) (g : Option Graph) : Text :=
  match g with
  | none => placeholder
  | some g => trimRight (joinWith "\n" (renderLines fallback direction limit g))

end Graph

end FlowDiagram
