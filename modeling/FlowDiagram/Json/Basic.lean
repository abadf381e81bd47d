import FlowDiagram.Decimal.Double
import FlowDiagram.Text.Basic

/-!
# JSON values

A JSON value in which integers are exact, other numbers are doubles, and an object is the list of its
fields in their order.
-/

namespace FlowDiagram

inductive Json
  | null
  | bool (b : Bool)
  | int (n : Int)
  | real (x : Double)
  | text (t : Text)
  | array (items : List Json)
  | object (fields : List (Text × Json))

namespace Json

def valueOf? (name : Text) (fields : List (Text × Json)) : Option Json := fields.lookup name

def field? (name : Text) : Json → Option Json
  | object fields => valueOf? name fields
  | _ => none

/-- Nothing, false, zero, and what is empty. -/
def isVoid : Json → Bool
  | null => true
  | bool b => !b
  | int n => n == 0
  | real x => x.isZero
  | text t => t.isEmpty
  | array items => items.isEmpty
  | object fields => fields.isEmpty

/-- Puts a field at the end, or the value in the place of the field of that name. -/
def putField (fields : List (Text × Json)) (name : Text) (value : Json) : List (Text × Json) :=
  match fields with
  | [] => [(name, value)]
  | (n, v) :: rest =>
    if n == name then (name, value) :: rest else (n, v) :: putField rest name value

end Json

end FlowDiagram
