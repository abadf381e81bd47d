import FlowDiagram.Text.Digit
import FlowDiagram.Text.Word

/-!
# Names for ids

Diagram code admits only word characters in an id. A name table gives each id a name of its own made
of such characters. An id that would get the name of another one gets the first free number behind
it, and a name once given stays.
-/

namespace FlowDiagram
open FlowDiagram.Text

/-- The ids that have a name, in the order in which they came, with their names. -/
structure NameTable where
  entries : List (Text × Text)
  deriving DecidableEq

namespace NameTable

def empty : NameTable := ⟨[]⟩

def taken (table : NameTable) : List Text := table.entries.map Prod.snd

def nameOf? (table : NameTable) (id : Text) : Option Text := table.entries.lookup id

/-! ### A new name -/

/-- The id with an underscore for every other character, or `node` for the empty id. -/
def baseName (id : Text) : Text :=
  if id.isEmpty then "node" else id.map fun c => if isWord c then c else '_'

/-- The names to try for a base: the base itself, then the base with `_2`, `_3` and so on. -/
def candidate (base : Text) : Nat → Text
  | 0 => base
  | k + 1 => base ++ "_" ++ ofNat (k + 2)

/-- The first candidate from number `k` on that is free, or the last of `tries` more. -/
def firstFree (taken : List Text) (base : Text) : (tries k : Nat) → Text
  | 0, k => candidate base k
  | tries + 1, k =>
    if taken.contains (candidate base k) then firstFree taken base tries (k + 1)
    else candidate base k

/-- The name for an id that has none. Of one more candidates than there are names in use, one is
free. -/
def freshName (table : NameTable) (id : Text) : Text :=
  firstFree table.taken (baseName id) table.taken.length 0

/-! ### Building a table -/

/-- Sees to it that an id has a name. -/
def add (table : NameTable) (id : Text) : NameTable :=
  match table.nameOf? id with
  | some _ => table
  | none => ⟨table.entries ++ [(id, table.freshName id)]⟩

/-- The table after the given ids have come one after the other. -/
def ofIds (ids : List Text) : NameTable := ids.foldl add empty

def nameOf (table : NameTable) (id : Text) : Text := (table.nameOf? id).getD (baseName id)

def namesOf (ids : List Text) : List Text := ids.map (ofIds ids).nameOf

end NameTable

end FlowDiagram
