import FlowDiagram.Code.Violation
import FlowDiagram.Text.Digit

/-!
# Issues

An issue is one violated rule together with what the rule found. Its message, the advice and the
detail are read off it.
-/

namespace FlowDiagram.Code
open FlowDiagram.Text

structure BracketCount where
  opening : CodePoint
  closing : CodePoint
  opened : Nat
  closed : Nat
  deriving DecidableEq

inductive Issue
  | emptyInput
  | unrecognizedDiagramType (firstLine : Text)
  | tooShort (length : Nat)
  | unbalancedBrackets (counts : List BracketCount)
  | prohibitedMarkup (tag : Text)
  | brokenArrowSyntax (arrows : List Text)
  | duplicateNodeId (ids : List Text)
  | noStructuralSyntax
  deriving DecidableEq

/-- For instance `[] 2/1`. -/
def BracketCount.describe (b : BracketCount) : Text :=
  b.opening :: b.closing :: (" " ++ ofNat b.opened ++ "/" ++ ofNat b.closed)

def inQuotes (t : Text) : Text := "\x27" ++ t ++ "\x27"

namespace Issue

def kind : Issue → Violation
  | emptyInput => .emptyInput
  | unrecognizedDiagramType _ => .unrecognizedDiagramType
  | tooShort _ => .tooShort
  | unbalancedBrackets _ => .unbalancedBrackets
  | prohibitedMarkup _ => .prohibitedMarkup
  | brokenArrowSyntax _ => .brokenArrowSyntax
  | duplicateNodeId _ => .duplicateNodeId
  | noStructuralSyntax => .noStructuralSyntax

def message : Issue → Text
  | emptyInput => "Diagram text is empty"
  | unrecognizedDiagramType _ =>
    "Code does not start with a known Mermaid diagram type"
  | tooShort length =>
    "Code is too short for a Mermaid diagram (" ++ ofNat length ++ " chars)"
  | unbalancedBrackets _ => "Unbalanced brackets in code"
  | prohibitedMarkup _ => "Code contains HTML markup (<br>, <div> or <span>)"
  | brokenArrowSyntax _ => "Code contains arrows with whitespace inside the token"
  | duplicateNodeId ids =>
    "Node ids defined more than once: " ++ joinWith ", " ids
  | noStructuralSyntax => "Code contains no arrows, brackets or diagram keywords"

def suggestion : Issue → Text
  | emptyInput =>
    "Provide Mermaid source starting with a diagram type such as 'graph TD'"
  | unrecognizedDiagramType _ =>
    "Start with e.g. 'graph TD', 'flowchart LR' or 'sequenceDiagram'"
  | tooShort _ => "Add at least one node or edge"
  | unbalancedBrackets _ => "Close every node shape bracket on the same line"
  | prohibitedMarkup _ => "Run the cleaner or replace markup with plain text"
  | brokenArrowSyntax _ => "Write arrows as '-->' or '-- label -->'"
  | duplicateNodeId _ => "Define each node once and reference it by id afterwards"
  | noStructuralSyntax => "Add node definitions or edges such as 'a --> b'"

/-- The place in the code that the rule speaks of, for the rules that have one. -/
def detail? : Issue → Option Text
  | unrecognizedDiagramType firstLine => some (firstLine.take 80)
  | unbalancedBrackets counts =>
    some (joinWith "; " (counts.map BracketCount.describe))
  | prohibitedMarkup tag => some tag
  | brokenArrowSyntax arrows => some (joinWith ", " (arrows.map inQuotes))
  | duplicateNodeId ids => some (joinWith "," ids)
  | emptyInput | tooShort _ | noStructuralSyntax => none

end Issue

end FlowDiagram.Code
