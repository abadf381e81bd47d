import FlowDiagram.Code.Fence
import FlowDiagram.Code.Rule

/-!
# Verdicts

A verdict on a text says which issues its code has, which ids are defined more than once, and a few
counts. The code is the text without a fence around it. A text that is missing or blank has one
issue, that of being empty, and no code.
-/

namespace FlowDiagram.Code
open FlowDiagram.Text

structure Stats where
  length : Nat
  lines : Nat
  nodeDefinitions : Nat
  deriving DecidableEq

structure Verdict where
  issues : List Issue
  duplicateIds : List Text
  stats : Stats
  deriving DecidableEq

/-! ### Reading a verdict -/

namespace Verdict

def isValid (v : Verdict) : Bool := v.issues.isEmpty

def violations (v : Verdict) : List Violation := v.issues.map Issue.kind

def messages (v : Verdict) : List Text := v.issues.map Issue.message

def has (v : Verdict) (kind : Violation) : Bool := v.violations.contains kind

def summary (v : Verdict) : Text :=
  if v.isValid then "Valid | 0 violations"
  else
    "Invalid | " ++ ofNat v.violations.length ++ " violations: " ++
      joinWith ", " (v.violations.map Violation.code)

/-- What a refusal on the grounds of this verdict says: each issue on a line of its own. -/
def refusal (v : Verdict) : Text :=
  "Diagram validation failed with " ++ ofNat v.violations.length ++
    " violations:\n" ++
    joinWith "\n" (v.issues.map fun i => "[" ++ i.kind.code ++ "] " ++ i.message)

end Verdict

/-! ### Reaching a verdict -/

def emptyVerdict : Verdict := ⟨[.emptyInput], [], ⟨0, 0, 0⟩⟩

/-- The verdict on code from which a fence has been taken off. -/
def judge (minLength : Int) (code : Text) : Verdict where
  issues := issues minLength code
  duplicateIds := repeated (definedIds code)
  stats := ⟨code.length, (lines code).length, (definedIds code).length⟩

def validate (minLength : Int) (text : Option Text) : Verdict :=
  match text with
  | none => emptyVerdict
  | some t => if allBlank t then emptyVerdict else judge minLength (unfence t)

/-- The verdict on a text, as an error where the text is not valid. -/
def requireValid (minLength : Int) (text : Option Text) : Except Verdict Verdict :=
  let verdict := validate minLength text
  if verdict.isValid then .ok verdict else .error verdict

theorem isValid_iff_violations_eq_nil (v : Verdict) : v.isValid = true ↔ v.violations = [] := by
  simp [Verdict.isValid, Verdict.violations, List.isEmpty_iff]

end FlowDiagram.Code
