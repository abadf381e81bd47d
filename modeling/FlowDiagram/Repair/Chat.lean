import FlowDiagram.Code.Fence
import FlowDiagram.Json.Display
import FlowDiagram.Json.Reader
import FlowDiagram.Repair.Failure
import FlowDiagram.Settings

/-!
# Chat models

A chat model is asked over HTTP: one message is posted, and the reply is a JSON object in which the
answer stands under `message` and `content`. The code is the first fenced block of the answer.
-/

namespace FlowDiagram.Repair
open FlowDiagram.Text FlowDiagram.Code

structure ChatModel where
  baseUrl : Text
  model : Text
  timeout : Int
  deriving DecidableEq

structure Post where
  url : Text
  body : Json
  timeout : Int

/-- The body of a reply: as raw text, or as the value that the text would hold. -/
inductive Body
  | raw (t : Text)
  | value (j : Json)

inductive Reply
  | failure (f : Failure)
  | response (status : Int) (reason : Text) (body : Body)

/-! ### The post -/

namespace ChatModel

def ofSettings (s : Settings) : ChatModel := ⟨s.baseUrl, s.model, s.timeout⟩

/-- The address of the chat, whatever slashes the base ends in. -/
def endpoint (m : ChatModel) : Text := dropWhileRight (· == '/') m.baseUrl ++ "/api/chat"

/-- The whole prompt is one message of the user, and the answer shall come at once. -/
def post (m : ChatModel) (prompt : Text) : Post where
  url := m.endpoint
  body := .object
    [("model", .text m.model),
     ("options", .object [("temperature", .real (.finite false 0 Double.minExponent))]),
     ("messages", .array
       [.object [("role", .text "user"), ("content", .text prompt)]]),
     ("stream", .bool false)]
  timeout := m.timeout

end ChatModel

/-! ### The status of a reply

The HTTP library checks the status. Which statuses fail and how is its own affair, so the check is a
parameter of what a model makes of a reply; all that a repair needs of it is that its failures are
absorbed.
-/

/-- The failure that a status is answered with, if it reports an error. -/
abbrev StatusCheck := (status : Int) → (reason url : Text) → Option Failure

/-- The check that programs run with: the statuses from 400 to 599 report errors. -/
def statusFailure? (status : Int) (reason url : Text) : Option Failure :=
  let described := fun side : Text =>
    some ⟨.status, some (ofInt status ++ side ++ reason ++ " for url: " ++ url)⟩
  if 400 ≤ status ∧ status < 500 then described " Client Error: "
  else if 500 ≤ status ∧ status < 600 then described " Server Error: "
  else none

/-! ### The reply -/

def containerName : Json.Container → Text
  | .array => "array"
  | .object => "object"

def readFailure : Json.ReadError → Failure
  | .malformed => ⟨.malformedBody, none⟩
  | .tooManyDigits count =>
    ⟨.value, some ("Exceeds the limit (" ++ ofNat maxDigits ++
      " digits) for integer string conversion: value has " ++ ofNat count ++
      " digits; use sys.set_int_max_str_digits() to increase the limit")⟩
  | .tooDeep container =>
    ⟨.recursion, some ("maximum recursion depth exceeded while decoding a JSON " ++
      containerName container ++ " from a unicode string")⟩

def Body.read : Body → Except Failure Json
  | .raw t =>
    match Json.read t with
    | .ok json => .ok json
    | .error e => .error (readFailure e)
  | .value j => .ok j

/-- The answer in a reply of the expected shape. -/
def content? (reply : Json) : Option Json :=
  (reply.field? "message").bind fun message => message.field? "content"

/-- The failure of a reply of another shape, which shows the start of the reply. -/
def shapeFailure (reply : Json) : Failure :=
  ⟨.value, some ("Unexpected chat response shape: " ++ (Json.display reply).take 200)⟩

/-- The code in an answer. A void value holds none, and any other value that is no text cannot be
searched. -/
def codeOf (answer : Json) : Except Failure Text :=
  match answer with
  | .text t => .ok (firstBlock t)
  | other => if other.isVoid then .ok [] else .error ⟨.wrongType, none⟩

/-- The code that a model gives with a reply whose status is checked. -/
def ChatModel.receiveWith (check : StatusCheck) (m : ChatModel) (reply : Reply) :
    Except Failure Text :=
  match reply with
  | .failure f => .error f
  | .response status reason body =>
    match check status reason m.endpoint with
    | some f => .error f
    | none => do
      let value ← body.read
      match content? value with
      | some answer => codeOf answer
      | none => .error (shapeFailure value)

def ChatModel.receive (m : ChatModel) (reply : Reply) : Except Failure Text :=
  m.receiveWith statusFailure? reply

end FlowDiagram.Repair
