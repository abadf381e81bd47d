import FlowDiagram.Text.Quoted

/-!
# Violations

The kinds of rule that diagram code can violate, each with the code by which reports name it.
-/

namespace FlowDiagram.Code

inductive Violation
  | emptyInput
  | unrecognizedDiagramType
  | tooShort
  | unbalancedBrackets
  | prohibitedMarkup
  | brokenArrowSyntax
  | duplicateNodeId
  | noStructuralSyntax
  deriving DecidableEq

namespace Violation

def code : Violation → Text
  | emptyInput => "EMPTY_INPUT"
  | unrecognizedDiagramType => "UNRECOGNIZED_DIAGRAM_TYPE"
  | tooShort => "TOO_SHORT"
  | unbalancedBrackets => "UNBALANCED_BRACKETS"
  | prohibitedMarkup => "PROHIBITED_MARKUP"
  | brokenArrowSyntax => "BROKEN_ARROW_SYNTAX"
  | duplicateNodeId => "DUPLICATE_NODE_ID"
  | noStructuralSyntax => "NO_STRUCTURAL_SYNTAX"

def all : List Violation :=
  [emptyInput, unrecognizedDiagramType, tooShort, unbalancedBrackets, prohibitedMarkup,
   brokenArrowSyntax, duplicateNodeId, noStructuralSyntax]

/-- The violation with a code. -/
def ofCode? (code : Text) : Option Violation := all.find? fun v => v.code == code

/-- What is said of a code that no violation has. -/
def unknownCode (code : Text) : Text :=
  Text.quoted code ++ " is not a valid ViolationKind"

theorem ofCode?_code (v : Violation) : ofCode? v.code = some v := by
  cases v <;> decide +kernel

end Violation

end FlowDiagram.Code
