import FlowDiagram.Text.Basic

/-!
# Failures of a reviser

Asking for a revision can fail in many ways. A repair absorbs the failures that come with the job: a
request that does not get through or is refused, a reply that cannot be read, an error of the model's
runtime. All others are faults of the program itself and end the repair.
-/

namespace FlowDiagram.Repair

inductive FailureKind
  /-- The request failed, for no more special reason. -/
  | request
  | connection
  | timeout
  /-- The reply had a status that reports an error. -/
  | status
  /-- The body of the reply held no JSON value. -/
  | malformedBody
  | runtime
  | unimplemented
  | recursion
  /-- A value was not one that could be worked with. -/
  | value
  | encoding
  | missingKey
  | lookup
  | wrongType
  | missingAttribute
  | system
  | systemConnection
  | systemTimeout
  | arithmetic
  deriving DecidableEq

/-- Whether a repair absorbs a failure of this kind. -/
def FailureKind.isAbsorbed : FailureKind → Bool
  | request | connection | timeout | status | malformedBody => true
  | runtime | unimplemented | recursion => true
  | value | encoding => true
  | missingKey | lookup | wrongType | missingAttribute => false
  | system | systemConnection | systemTimeout | arithmetic => false

structure Failure where
  kind : FailureKind
  /-- What is told about the failure, where something can be said. -/
  message : Option Text
  deriving DecidableEq

end FlowDiagram.Repair
