import FlowDiagram.Repair.Improvement

/-!
# Sessions

An improver handles one request after the other. It holds a reviser, or may take up a chat model the
first time that it needs one. Revisers and models answer from supplies, each answer once; what was
asked and posted for a request is told with its outcome.
-/

namespace FlowDiagram.Repair

/-- Who revises: someone with prepared answers, or a chat model. -/
inductive Reviser
  | prepared
  | chat (model : ChatModel)
  deriving DecidableEq

/-- The answers that are still to come. -/
structure Supply where
  answers : List (Except Failure Json)
  replies : List Reply

structure Improver where
  /-- Whether a chat model may be taken up. -/
  useModel : Bool
  reviser : Option Reviser
  deriving DecidableEq

structure Inquiry where
  prompts : List Text
  posts : List Post

structure Step where
  result : Except Failure Improvement
  inquiry : Inquiry
  /-- Whether the improver holds a reviser afterwards. -/
  holdsReviser : Bool

/-! ### Asking -/

def Inquiry.none : Inquiry := ⟨[], []⟩

def exhausted (kind : FailureKind) : Failure := ⟨kind, some "no reply left"⟩

def Supply.nextAnswer (s : Supply) : Except Failure Json × Supply :=
  match s.answers with
  | [] => (.error (exhausted .runtime), s)
  | answer :: rest => (answer, { s with answers := rest })

def Supply.nextReply (s : Supply) : Reply × Supply :=
  match s.replies with
  | [] => (.failure (exhausted .connection), s)
  | reply :: rest => (reply, { s with replies := rest })

/-- Asks a reviser, which takes one answer or one reply from the supply. -/
def Reviser.ask (reviser : Reviser) (prompt : Text) (s : Supply) :
    Except Failure Json × Inquiry × Supply :=
  match reviser with
  | prepared =>
    let (answer, s) := s.nextAnswer
    (answer, ⟨[prompt], []⟩, s)
  | chat model =>
    let (reply, s) := s.nextReply
    ((model.receive reply).map Json.text, ⟨[], [model.post prompt]⟩, s)

/-! ### Improving -/

/-- The improver with a chat model taken up, if it has no reviser and may use one. -/
def Improver.equipped (settings : Settings) (i : Improver) : Improver :=
  match i.reviser with
  | some _ => i
  | none =>
    if i.useModel then { i with reviser := some (.chat (.ofSettings settings)) } else i

/-- Handles one request. A reviser is needed only for a draft that stays open. -/
def Improver.handle (settings : Settings) (i : Improver) (s : Supply) (r : Request) :
    Step × Improver × Supply :=
  match r.triage settings.minLength with
  | .settled result => (⟨.ok result, .none, i.reviser.isSome⟩, i, s)
  | .unsettled draft =>
    let i := i.equipped settings
    match i.reviser with
    | none => (⟨.ok (draft.keep []), .none, false⟩, i, s)
    | some reviser =>
      let (answer, inquiry, s) := reviser.ask (r.promptFor draft) s
      (⟨draft.finish settings.minLength answer, inquiry, true⟩, i, s)

/-- What one improver does with one request is an improvement with the reviser that it then holds. -/
theorem Improver.handle_result (settings : Settings) (i : Improver) (s : Supply) (r : Request) :
    (i.handle settings s r).1.result =
      improve settings.minLength
        ((i.equipped settings).reviser.map fun reviser prompt => (reviser.ask prompt s).1) r := by
  unfold Improver.handle improve
  cases r.triage settings.minLength with
  | settled result => rfl
  | unsettled draft =>
    cases h : (i.equipped settings).reviser with
    | none => simp [h]
    | some reviser => simp [h]

/-- One improver handles all requests. -/
def Improver.run (settings : Settings) (i : Improver) (s : Supply) : List Request → List Step
  | [] => []
  | r :: rs =>
    let (step, i, s) := i.handle settings s r
    step :: i.run settings s rs

/-- Each request is handled by a fresh copy of an improver, which itself stays as it is. -/
def Improver.runFresh (settings : Settings) (i : Improver) (s : Supply) : List Request → List Step
  | [] => []
  | r :: rs =>
    let (step, _, s) := i.handle settings s r
    { step with holdsReviser := i.reviser.isSome } :: i.runFresh settings s rs

end FlowDiagram.Repair
