import FlowDiagram.Proofs.Repair.Stages

/-!
# Replies that end a repair

A repair outlives a chat model that does not answer, answers with an error, or sends a body that
cannot be read or has no content in it. One kind of reply ends it: content that is there, and is
neither a text nor void. Nothing catches the failure to look for code in such a value.
-/

namespace FlowDiagram.Repair
open FlowDiagram.Text FlowDiagram.Code

/-! ### The content of a reply -/

/-- There is content, but it cannot be searched for code. -/
def isUnsearchable (content? : Option Json) : Bool := content?.any fun value => !isSearchable value

/-- The code in content, taken out by the model and once more by the repair. -/
def codeIn (content? : Option Json) : Text :=
  clean (firstBlock ((content?.map blockIn).getD []))

namespace Reply

/-- The content of a reply that passes the check and is of the expected shape. -/
def contentWith? (check : StatusCheck) (url : Text) (reply : Reply) : Option Json :=
  match reply with
  | failure _ => none
  | response status reason body =>
    match check status reason url with
    | some _ => none
    | none => body.read.toOption.bind Repair.content?

/-- The content of a reply that reports no error and is of the expected shape. -/
def content? (reply : Reply) : Option Json :=
  match reply with
  | failure _ => none
  | response status _ body =>
    if 400 ≤ status ∧ status < 600 then none else body.read.toOption.bind Repair.content?

def isUnsearchable (reply : Reply) : Bool := Repair.isUnsearchable reply.content?

def code (reply : Reply) : Text := codeIn reply.content?

end Reply

/-! ### The check of a status -/

theorem statusFailure?_of_error {status : Int} (h : 400 ≤ status ∧ status < 600)
    (reason url : Text) :
    ∃ message, statusFailure? status reason url = some ⟨.status, some message⟩ := by
  unfold statusFailure?
  by_cases hclient : status < 500
  · exact ⟨_, if_pos ⟨h.1, hclient⟩⟩
  · exact ⟨_, by rw [if_neg fun hc => hclient hc.2, if_pos ⟨by omega, h.2⟩]⟩

theorem statusFailure?_of_not_error {status : Int} (h : ¬ (400 ≤ status ∧ status < 600))
    (reason url : Text) : statusFailure? status reason url = none := by
  unfold statusFailure?
  rw [if_neg (by omega), if_neg (by omega)]

/-- A repair absorbs every failure of the check. -/
def StatusCheck.IsAbsorbed (check : StatusCheck) : Prop :=
  ∀ status reason url f, check status reason url = some f → f.kind.isAbsorbed = true

theorem isAbsorbed_statusFailure? : StatusCheck.IsAbsorbed statusFailure? := by
  intro status reason url f hf
  by_cases herror : 400 ≤ status ∧ status < 600
  · obtain ⟨message, hmessage⟩ := statusFailure?_of_error herror reason url
    obtain rfl := Option.some.inj (hmessage.symm.trans hf)
    rfl
  · rw [statusFailure?_of_not_error herror] at hf
    exact absurd hf (by simp)

theorem Reply.contentWith?_statusFailure? (url : Text) (reply : Reply) :
    reply.contentWith? statusFailure? url = reply.content? := by
  cases reply with
  | failure f => rfl
  | response status reason body =>
    unfold contentWith? content?
    by_cases herror : 400 ≤ status ∧ status < 600
    · obtain ⟨message, hmessage⟩ := statusFailure?_of_error herror reason url
      simp only [hmessage, if_pos herror]
    · simp only [statusFailure?_of_not_error herror, if_neg herror]

/-! ### What a model gives with a reply -/

theorem isAbsorbed_readFailure (e : Json.ReadError) : (readFailure e).kind.isAbsorbed = true := by
  cases e <;> rfl

theorem isAbsorbed_of_read {body : Body} {f : Failure} (h : body.read = .error f) :
    f.kind.isAbsorbed = true := by
  cases body with
  | value j => exact absurd h (by simp [Body.read])
  | raw t =>
    unfold Body.read at h
    simp only at h
    split at h
    · exact absurd h (by simp)
    · rw [← Except.error.inj h]
      exact isAbsorbed_readFailure _

section
variable {check : StatusCheck} {m : ChatModel} {reply : Reply}

/-- The model searches the content, and where there is none it fails in an absorbed way, unless the
post itself failed. -/
theorem ChatModel.receiveWith_cases (hstatus : check.IsAbsorbed) (m : ChatModel) (reply : Reply) :
    (∃ value, reply.contentWith? check m.endpoint = some value ∧
        m.receiveWith check reply = codeOf value) ∨
      (reply.contentWith? check m.endpoint = none ∧ ∃ f, m.receiveWith check reply = .error f ∧
        (f.kind.isAbsorbed = true ∨ reply = .failure f)) := by
  cases reply with
  | failure f => exact Or.inr ⟨rfl, f, rfl, Or.inr rfl⟩
  | response status reason body =>
    cases hcheck : check status reason m.endpoint with
    | some f =>
      refine Or.inr ⟨?_, f, ?_, Or.inl (hstatus status reason m.endpoint f hcheck)⟩
      · simp only [Reply.contentWith?, hcheck]
      · simp only [receiveWith, hcheck]
    | none =>
      have hcontent : (Reply.response status reason body).contentWith? check m.endpoint =
          body.read.toOption.bind Repair.content? := by
        simp only [Reply.contentWith?, hcheck]
      rw [hcontent]
      cases hread : body.read with
      | error f =>
        refine Or.inr ⟨rfl, f, ?_, Or.inl (isAbsorbed_of_read hread)⟩
        simp only [receiveWith, hcheck, hread]
        rfl
      | ok value =>
        cases hanswer : Repair.content? value with
        | some answer =>
          refine Or.inl ⟨answer, hanswer, ?_⟩
          simp only [receiveWith, hcheck, hread, bind, Except.bind, hanswer]
        | none =>
          refine Or.inr ⟨hanswer, shapeFailure value, ?_, Or.inl rfl⟩
          simp only [receiveWith, hcheck, hread, bind, Except.bind, hanswer]

/-! ### The answer of a chat model -/

theorem escaping?_receiveWith (hstatus : check.IsAbsorbed)
    (hpost : ∀ f, reply = .failure f → f.kind.isAbsorbed = true) :
    escaping? ((m.receiveWith check reply).map Json.text) =
      if isUnsearchable (reply.contentWith? check m.endpoint) then some ⟨.wrongType, none⟩
      else none := by
  rcases m.receiveWith_cases hstatus reply with ⟨value, hcontent, hreceive⟩ |
    ⟨hcontent, f, hreceive, hf⟩
  · rw [hreceive, codeOf_eq, isUnsearchable, hcontent]
    cases h : isSearchable value <;> simp [h] <;> rfl
  · have habsorbed : f.kind.isAbsorbed = true := hf.elim id (hpost f)
    rw [hreceive, isUnsearchable, hcontent]
    exact if_pos habsorbed

theorem revision?_receiveWith (hstatus : check.IsAbsorbed) (m : ChatModel) (reply : Reply) :
    revision? ((m.receiveWith check reply).map Json.text) =
      if codeIn (reply.contentWith? check m.endpoint) = [] then none
      else some (codeIn (reply.contentWith? check m.endpoint)) := by
  rcases m.receiveWith_cases hstatus reply with ⟨value, hcontent, hreceive⟩ |
    ⟨hcontent, f, hreceive, -⟩
  · rw [hreceive, codeOf_eq, codeIn, hcontent]
    cases h : isSearchable value with
    | true => rfl
    | false =>
      have hblock : blockIn value = [] := by
        cases value with
        | text t => exact absurd h (by simp [isSearchable])
        | _ => rfl
      rw [Option.map_some, hblock]
      rfl
  · rw [hreceive, codeIn, hcontent]
    rfl

/-! ### The outcome of a repair -/

section
variable {minLength : Int} {r : Request}

theorem improve_of_receiveWith (hstatus : check.IsAbsorbed)
    (hpost : ∀ f, reply = .failure f → f.kind.isAbsorbed = true) (hopen : r.IsOpen minLength) :
    improve minLength (some fun _ => (m.receiveWith check reply).map Json.text) r =
      if isUnsearchable (reply.contentWith? check m.endpoint) then .error ⟨.wrongType, none⟩
      else if codeIn (reply.contentWith? check m.endpoint) = [] then
        .ok ((r.draft minLength).keep [missNote ((m.receiveWith check reply).map Json.text)])
      else .ok ((r.draft minLength).replace minLength
        (codeIn (reply.contentWith? check m.endpoint))) := by
  rw [Request.improve_of_isOpen hopen, Draft.finish_eq, escaping?_receiveWith hstatus hpost,
    revision?_receiveWith hstatus]
  cases isUnsearchable (reply.contentWith? check m.endpoint) with
  | true => rfl
  | false => by_cases hcode : codeIn (reply.contentWith? check m.endpoint) = [] <;> simp [hcode]

/-- With a chat model a repair comes to a result unless the model is asked and the content of its
reply cannot be searched, whatever statuses the check refuses. A reply without code leaves the
cleaned code. -/
theorem exists_improve_of_receiveWith_iff (hstatus : check.IsAbsorbed)
    (hpost : ∀ f, reply = .failure f → f.kind.isAbsorbed = true) :
    let result := improve minLength (some fun _ => (m.receiveWith check reply).map Json.text) r
    let content? := reply.contentWith? check m.endpoint
    ((∃ v, result = .ok v) ↔ ¬ (r.IsOpen minLength ∧ isUnsearchable content? = true)) ∧
      (∀ f, result = .error f → f = ⟨.wrongType, none⟩) ∧
      (r.IsOpen minLength → codeIn content? = [] → ∀ v, result = .ok v →
        v.code = clean (unfence (r.code.getD [])) ∧ v.confidence = .unfixed) := by
  intro result content?
  by_cases hopen : r.IsOpen minLength
  · have hresult : result = _ := improve_of_receiveWith hstatus hpost hopen
    cases hsearch : isUnsearchable content? with
    | true =>
      rw [if_pos hsearch] at hresult
      rw [hresult]
      simp [hopen]
    | false =>
      rw [if_neg (Bool.eq_false_iff.1 hsearch)] at hresult
      by_cases hcode : codeIn content? = []
      · rw [if_pos hcode] at hresult
        rw [hresult]
        refine ⟨by simp, by simp, ?_⟩
        intro _ _ v hv
        obtain rfl := Except.ok.inj hv
        simp only [Draft.keep, Request.draft, Request.cleanCode, Request.bareCode, and_self]
      · rw [if_neg hcode] at hresult
        rw [hresult]
        exact ⟨by simp, by simp, fun _ hnil => absurd hnil hcode⟩
  · obtain ⟨v, hv⟩ : ∃ v, result = .ok v := Request.exists_improve_of_not_isOpen hopen _
    rw [hv]
    exact ⟨by simp [hopen], by simp, fun h => absurd h hopen⟩

end

end

namespace Improver
variable {settings : Settings} {i : Improver} {s : Supply} {r : Request} {m : ChatModel}

theorem result_of_isUnsearchable (hreviser : (i.equipped settings).reviser = some (.chat m))
    (hpost : ∀ f, s.nextReply.1 = .failure f → f.kind.isAbsorbed = true)
    (hopen : r.IsOpen settings.minLength) (h : s.nextReply.1.isUnsearchable = true) :
    (i.handle settings s r).1.result = .error ⟨.wrongType, none⟩ := by
  rw [Reply.isUnsearchable, ← s.nextReply.1.contentWith?_statusFailure? m.endpoint] at h
  rw [result_of_reviser hreviser]
  exact (improve_of_receiveWith isAbsorbed_statusFailure? hpost hopen).trans (if_pos h)

/-- With a chat model a repair comes to a result unless the model is asked and the content of its
reply cannot be searched. A reply without code leaves the cleaned code. -/
theorem exists_result_of_chat_iff (hreviser : (i.equipped settings).reviser = some (.chat m))
    (hpost : ∀ f, s.nextReply.1 = .failure f → f.kind.isAbsorbed = true) :
    let result := (i.handle settings s r).1.result
    let reply := s.nextReply.1
    ((∃ v, result = .ok v) ↔ ¬ (r.IsOpen settings.minLength ∧ reply.isUnsearchable = true)) ∧
      (∀ f, result = .error f → f = ⟨.wrongType, none⟩) ∧
      (r.IsOpen settings.minLength → reply.code = [] → ∀ v, result = .ok v →
        v.code = clean (unfence (r.code.getD [])) ∧ v.confidence = .unfixed) := by
  intro result reply
  have hresult : result =
      improve settings.minLength (some fun _ => (m.receive reply).map Json.text) r :=
    result_of_reviser hreviser
  rw [hresult, Reply.isUnsearchable, Reply.code, ← reply.contentWith?_statusFailure? m.endpoint]
  exact exists_improve_of_receiveWith_iff isAbsorbed_statusFailure? hpost

/-- The model does not answer in time. -/
theorem exists_result_of_chat_iff_timeout :
    let supply : Supply := ⟨[], [.failure ⟨.timeout, none⟩]⟩
    let request : Request := ⟨some "graph TD\n    a[Start -- > b", none, none⟩
    ∃ v, (Improver.handle Settings.standard ⟨true, none⟩ supply request).1.result = .ok v ∧
      v.code = Text.ofString "graph TD\n    a[Start --> b" ∧ v.confidence = .unfixed := by
  intro supply request
  have hpost : ∀ f, supply.nextReply.1 = .failure f → f.kind.isAbsorbed = true := by
    intro f hf
    obtain rfl := Reply.failure.inj hf
    rfl
  have hchat := exists_result_of_chat_iff (r := request)
    (show (Improver.equipped Settings.standard ⟨true, none⟩).reviser = _ from rfl) hpost
  obtain ⟨v, hv⟩ := hchat.1.2 (by decide +kernel)
  obtain ⟨hcode, hconfidence⟩ := hchat.2.2 (by decide +kernel) (by decide +kernel) v hv
  exact ⟨v, hv, hcode.trans (by decide +kernel), hconfidence⟩

/-- The content of the reply is a number. -/
theorem result_number_content :
    (Improver.handle Settings.standard ⟨true, none⟩
      ⟨[], [.response 200 [] (.value (.object
        [("message", .object [("content", .int 5)])]))]⟩
      ⟨some "graph TD\n    a[Start\n    a --> b", none, none⟩).1.result =
        .error ⟨.wrongType, none⟩ := by
  exact result_of_isUnsearchable rfl (by simp [Supply.nextReply]) (by decide +kernel)
    (by decide +kernel)

end Improver

end FlowDiagram.Repair
