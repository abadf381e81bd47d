import FlowDiagram.Code.Cleaning
import FlowDiagram.Code.Verdict
import FlowDiagram.Graph.Payload
import FlowDiagram.Graph.Render
import FlowDiagram.Label.Fragment
import FlowDiagram.Settings

/-!
# Workflows

What the parts of the library do together: cleaning a text and judging the result, compiling a graph
and judging the code, and passing one text through several operations.
-/

namespace FlowDiagram
open FlowDiagram.Text FlowDiagram.Code

/-- The cleaned text and the verdict on it. The verdict is advice: the text is used either way. -/
def cleanThenValidate (s : Settings) (text : Option Text) : Text × Verdict :=
  let cleaned := clean (text.getD [])
  (cleaned, validate s.minLength (some cleaned))

def compileAndCheck (s : Settings) (direction : Option Text) (limit : Int) (g : Option Graph) :
    Text × Verdict :=
  let code := Graph.compile s.fallbackLabel direction limit g
  (code, validate s.minLength (some code))

def compilePayloadWith (v : Payload.Validator) (s : Settings) (direction : Option Text)
    (limit : Int) (payload : Json) : Payload.Checked Text :=
  (Payload.readWith v payload).map fun g => Graph.compile s.fallbackLabel direction limit (some g)

def compilePayload (s : Settings) (direction : Option Text) (limit : Int) (payload : Json) :
    Payload.Checked Text :=
  compilePayloadWith .standard s direction limit payload

/-- The operations that make one text of another. -/
inductive TextOperation
  | sanitizeLabel
  | sanitizeFragment
  | sanitizeTitle
  | stripFence
  | extractBlock
  | clean
  | summarize
  deriving DecidableEq

/-- A missing text counts as the empty one, except that a summary knows it as missing. -/
def TextOperation.apply (s : Settings) (text : Option Text) : TextOperation → Text
  | sanitizeLabel => Label.sanitize s.fallbackLabel (text.getD [])
  | sanitizeFragment => Label.ofFragment s.fallbackLabel (text.getD [])
  | sanitizeTitle => Label.ofTitle s.fallbackLabel (text.getD [])
  | stripFence => unfence (text.getD [])
  | extractBlock => firstBlock (text.getD [])
  | clean => Code.clean (text.getD [])
  | summarize => (validate s.minLength text).summary

/-- The texts after each of several operations, each fed with the text before. -/
def chain (s : Settings) (text : Option Text) : List TextOperation → List Text
  | [] => []
  | op :: ops =>
    let result := op.apply s text
    result :: chain s (some result) ops

end FlowDiagram
