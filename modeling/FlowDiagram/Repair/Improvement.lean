import FlowDiagram.Code.Cleaning
import FlowDiagram.Code.Verdict
import FlowDiagram.Repair.Chat
import FlowDiagram.Repair.Prompt

/-!
# Improvements

Code is improved in stages: it is taken as it is if it is valid, then cleaned, and if that does not
make it valid either a reviser is asked, if there is one. An improvement tells the code that came
out, the verdict on it, how far it can be trusted, and what was done.
-/

namespace FlowDiagram.Repair
open FlowDiagram.Text FlowDiagram.Code

inductive Confidence
  | alreadyValid
  | revisedValid
  | cleanedValid
  | revisedInvalid
  | unfixed
  deriving DecidableEq

def Confidence.text : Confidence → Text
  | alreadyValid => "0.95"
  | revisedValid => "0.85"
  | cleanedValid => "0.5"
  | revisedInvalid => "0.4"
  | unfixed => "0.1"

inductive Note
  | alreadyValid
  | repaired
  | revised
  | revisionFailed
  | revisionEmpty
  deriving DecidableEq

def Note.text : Note → Text
  | alreadyValid => "Code was already valid"
  | repaired => "Repaired markup tags and arrow tokens"
  | revised => "LLM-based syntax correction"
  | revisionFailed => "Rewrite failed, original code kept"
  | revisionEmpty => "Rewrite returned no code, original code kept"

structure Improvement where
  code : Text
  verdict : Verdict
  confidence : Confidence
  notes : List Note
  /-- Whether the code is that of the reviser. -/
  revised : Bool
  deriving DecidableEq

/-- Code to improve, with what is known about its diagram. -/
structure Request where
  code : Option Text
  title : Option Text
  context : Option Text
  deriving DecidableEq

/-! ### Before a reviser is asked -/

/-- Cleaned code that is not valid. -/
structure Draft where
  code : Text
  verdict : Verdict
  notes : List Note
  deriving DecidableEq

/-- What the stages without a reviser come to. -/
inductive Triage
  | settled (result : Improvement)
  | unsettled (draft : Draft)
  deriving DecidableEq

/-- The code as it is given, without a fence around it. -/
def Request.bareCode (r : Request) : Text := unfence (r.code.getD [])

/-- Takes valid code as it is, and cleans other code. -/
def Request.triage (minLength : Int) (r : Request) : Triage :=
  let verdict := validate minLength (some r.bareCode)
  if verdict.isValid then
    .settled ⟨r.bareCode, verdict, .alreadyValid, [.alreadyValid], false⟩
  else
    let cleaned := clean r.bareCode
    if cleaned == r.bareCode then .unsettled ⟨cleaned, verdict, []⟩
    else
      let verdict := validate minLength (some cleaned)
      if verdict.isValid then .settled ⟨cleaned, verdict, .cleanedValid, [.repaired], false⟩
      else .unsettled ⟨cleaned, verdict, [.repaired]⟩

def Request.promptFor (r : Request) (d : Draft) : Text :=
  prompt d.code d.verdict.messages r.title r.context

/-! ### After a reviser was asked -/

def Draft.keep (d : Draft) (note : List Note) : Improvement :=
  ⟨d.code, d.verdict, .unfixed, d.notes ++ note, false⟩

def Draft.replace (minLength : Int) (d : Draft) (code : Text) : Improvement :=
  let verdict := validate minLength (some code)
  ⟨code, verdict, if verdict.isValid then .revisedValid else .revisedInvalid,
    d.notes ++ [.revised], true⟩

/-- The outcome with the answer of a reviser. An absorbed failure or an answer without code keeps the
draft, and every other failure is passed on. -/
def Draft.finish (minLength : Int) (d : Draft) (answer : Except Failure Json) :
    Except Failure Improvement :=
  match answer with
  | .error f => if f.kind.isAbsorbed then .ok (d.keep [.revisionFailed]) else .error f
  | .ok value => do
    let code := clean (← codeOf value)
    if code.isEmpty then return d.keep [.revisionEmpty] else return d.replace minLength code

def improve (minLength : Int) (reviser : Option (Text → Except Failure Json)) (r : Request) :
    Except Failure Improvement :=
  match r.triage minLength with
  | .settled result => .ok result
  | .unsettled draft =>
    match reviser with
    | none => .ok (draft.keep [])
    | some ask => draft.finish minLength (ask (r.promptFor draft))

end FlowDiagram.Repair
