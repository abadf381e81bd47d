import FlowDiagram.Graph.Basic
import FlowDiagram.Graph.Schema
import FlowDiagram.Text.Upper

/-!
# Payloads

A payload is a graph as a JSON value: an object with the lists `nodes` and `edges`, each of which
may be missing. A node has an id, a label and a shape, an edge its two ends and a label. The schemas
say this to a validator, and what the validator reads is put together as a graph.
-/

namespace FlowDiagram.Payload
open FlowDiagram.Text

/-! ### Nodes -/

def shapeNames : List Text := ["box", "diamond", "rounded"]

/-- The name of a shape may be written in either case. Anything but a text is left to the check. -/
def lowerCase : Json → Json
  | .text t => .text (toLowerAscii t)
  | j => j

theorem isSome_ofName? : ∀ t ∈ shapeNames, (Shape.ofName? t).isSome = true := by decide

def shapeOf (name : {t : Text // t ∈ shapeNames}) : Shape :=
  (Shape.ofName? name.val).get (isSome_ofName? name.val name.property)

abbrev NodePayload := Text × Text × {t : Text // t ∈ shapeNames} × Unit

/-- A node needs an id. Its label is empty where it has none, and its shape a box. -/
def nodeSchema : Schema NodePayload :=
  .model "NodePayload" false
    (.and "id" none none (.text 1)
      (.and "label" none (some []) (.text 0)
        (.and "shape" none (some ⟨"box", by decide⟩) (.before lowerCase (.oneOf shapeNames))
          .none)))

def toNode : NodePayload → Node
  | (id, label, shape, ()) => ⟨some id, some label, some (shapeOf shape)⟩

/-! ### Edges -/

abbrev EdgePayload := Text × Text × Option Text × Unit

/-- The ends of an edge are under `from` and `to`, or else under `source` and `target`. -/
def edgeSchema : Schema EdgePayload :=
  .model "EdgePayload" true
    (.and "source" (some "from") none (.text 1)
      (.and "target" (some "to") none (.text 1)
        (.and "label" none (some none) (.optional (.text 0)) .none)))

def toEdge : EdgePayload → Edge
  | (source, target, label, ()) => ⟨some source, some target, label⟩

/-! ### Graphs -/

abbrev GraphPayload := List NodePayload × List EdgePayload × Unit

def graphSchema : Schema GraphPayload :=
  .model "GraphPayload" false
    (.and "nodes" none (some []) (.list nodeSchema)
      (.and "edges" none (some []) (.list edgeSchema) .none))

def toGraph : GraphPayload → Graph
  | (nodes, edges, ()) => ⟨nodes.map toNode, edges.map toEdge⟩

def readWith (v : Validator) (p : Json) : Checked Graph := (v.validate graphSchema p).map toGraph

def read : Json → Checked Graph := readWith .standard

end FlowDiagram.Payload
