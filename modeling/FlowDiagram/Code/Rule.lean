import FlowDiagram.Code.Definition
import FlowDiagram.Code.Issue
import FlowDiagram.Code.Markup
import FlowDiagram.Text.Upper

/-!
# Rules

Seven rules look at diagram code. Each is a quick check that finds at most one issue: brackets are
counted and not matched, and ids are looked for only where lines start. `issues` runs the rules in
their fixed order.
-/

namespace FlowDiagram.Code
open FlowDiagram.Text

/-! ### The words and signs of the language -/

/-- The diagram types that code may start with, in small letters. -/
def diagramTypes : List Text :=
  ["graph", "flowchart", "sequencediagram", "classdiagram",
   "erdiagram", "journey", "gantt", "pie", "gitgraph",
   "mindmap", "timeline"]

/-- The signs of which structured code holds one. -/
def structuralSigns : List Text :=
  ["-->", "->", "---", "::", "[", "(", "\x7b"]

/-- The words that do as well, in small letters. -/
def structuralWords : List Text :=
  ["subgraph", "participant", "activate", "note"]

def bracketPairs : List (CodePoint × CodePoint) := [('[', ']'), ('(', ')'), ('\x7b', '\x7d')]

/-- Arrows with a space inside. -/
def brokenArrows : List Text := ["-- >", "- >"]

/-! ### The rules -/

/-- Code starts with a diagram type, in either case. -/
def typeRule (code : Text) : Option Issue :=
  if diagramTypes.any fun name => name.isPrefixOf (toLowerAscii code) then none
  else some (.unrecognizedDiagramType (firstLine code))

/-- Code is longer than the least length. -/
def lengthRule (minLength : Int) (code : Text) : Option Issue :=
  if minLength < code.length then none else some (.tooShort code.length)

def bracketCount (code : Text) (pair : CodePoint × CodePoint) : BracketCount :=
  ⟨pair.1, pair.2, code.count pair.1, code.count pair.2⟩

def bracketRule (code : Text) : Option Issue :=
  match (bracketPairs.map (bracketCount code)).filter fun b => b.opened != b.closed with
  | [] => none
  | counts => some (.unbalancedBrackets counts)

def markupRule (code : Text) : Option Issue := (markup.search code).map .prohibitedMarkup

/-- No arrow holds a space. -/
def arrowRule (code : Text) : Option Issue :=
  match brokenArrows.filter fun arrow => occurs arrow code with
  | [] => none
  | arrows => some (.brokenArrowSyntax arrows)

def duplicateRule (code : Text) : Option Issue :=
  match repeated (definedIds code) with
  | [] => none
  | ids => some (.duplicateNodeId ids)

/-- Code holds a structural sign or word. -/
def structureRule (code : Text) : Option Issue :=
  if structuralSigns.any (fun sign => occurs sign code) ||
      structuralWords.any (fun word => occurs word (toLowerAscii code)) then none
  else some .noStructuralSyntax

/-- The rules in the order in which their issues are reported. -/
def rules (minLength : Int) : List (Text → Option Issue) :=
  [typeRule, lengthRule minLength, bracketRule, markupRule, arrowRule, duplicateRule,
   structureRule]

def issues (minLength : Int) (code : Text) : List Issue :=
  (rules minLength).filterMap fun rule => rule code

end FlowDiagram.Code
