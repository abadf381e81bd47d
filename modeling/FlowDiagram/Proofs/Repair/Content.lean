import FlowDiagram.Proofs.Code.Block
import FlowDiagram.Proofs.Repair.Reply

/-!
# Content handed on with and without its block taken out

A chat model takes the first block out of the content of its reply, and the repair takes it out of
whatever answer it gets. Since a block that is taken out twice is the same, a reviser that hands on
the content as it is leads to the same improvement.
-/

namespace FlowDiagram.Repair
open FlowDiagram.Text FlowDiagram.Code

/-! ### Answers that finish a draft alike -/

theorem Draft.finish_firstBlock (minLength : Int) (d : Draft) (t : Text) :
    d.finish minLength (.ok (.text (firstBlock t))) = d.finish minLength (.ok (.text t)) := by
  simp only [finish, codeOf, firstBlock_firstBlock]

theorem Draft.exists_finish_text (minLength : Int) (d : Draft) (t : Text) :
    ∃ v, d.finish minLength (.ok (.text t)) = .ok v := by
  rw [finish_eq]
  cases hrevision : revision? (.ok (.text t)) with
  | none => exact ⟨d.keep [.revisionEmpty], rfl⟩
  | some code => exact ⟨d.replace minLength code, rfl⟩

theorem improve_congr {minLength : Int} {r : Request} {ask other : Text → Except Failure Json}
    (h : ∀ d prompt,
      Draft.finish minLength d (ask prompt) = Draft.finish minLength d (other prompt)) :
    improve minLength (some ask) r = improve minLength (some other) r := by
  unfold improve
  cases r.triage minLength with
  | settled result => rfl
  | unsettled draft => exact h draft (r.promptFor draft)

/-- A text never ends a repair with a failure. -/
theorem exists_improve_text (minLength : Int) (r : Request) (t : Text) :
    ∃ v, improve minLength (some fun _ => .ok (.text t)) r = .ok v := by
  unfold improve
  cases r.triage minLength with
  | settled result => exact ⟨result, rfl⟩
  | unsettled draft => exact draft.exists_finish_text minLength t

/-! ### Replies with a text as content -/

theorem ChatModel.receive_of_content {m : ChatModel} {reply : Reply} {t : Text}
    (h : reply.content? = some (.text t)) : m.receive reply = .ok (firstBlock t) := by
  rw [← reply.contentWith?_statusFailure? m.endpoint] at h
  rcases m.receiveWith_cases isAbsorbed_statusFailure? reply with ⟨value, hvalue, hreceive⟩ |
    ⟨hnone, -⟩
  · obtain rfl : value = .text t := Option.some.inj (hvalue.symm.trans h)
    exact hreceive
  · rw [hnone] at h
    exact absurd h (by simp)

/-- The value of a reply that has nothing but content. -/
def contentOnly (t : Text) : Json := .object [("message", .object [("content", .text t)])]

theorem Reply.content?_contentOnly {body : Body} {t : Text} (h : body.read = .ok (contentOnly t))
    (reason : Text) : (Reply.response 200 reason body).content? = some (.text t) := by
  have hread : (Reply.response 200 reason body).content? =
      body.read.toOption.bind Repair.content? := rfl
  rw [hread, h]
  rfl

namespace Improver
variable {settings : Settings} {i : Improver} {s : Supply} {r : Request}

theorem result_of_content {m : ChatModel} {t : Text}
    (hreviser : (i.equipped settings).reviser = some (.chat m))
    (hcontent : s.nextReply.1.content? = some (.text t)) :
    (i.handle settings s r).1.result =
      improve settings.minLength (some fun _ => .ok (.text t)) r := by
  have hanswer : (Reviser.chat m).answer s = .ok (.text (firstBlock t)) := by
    rw [Reviser.answer, ChatModel.receive_of_content hcontent]
    rfl
  rw [result_of_reviser hreviser, hanswer]
  exact improve_congr fun d _ => d.finish_firstBlock settings.minLength t

/-- It does not matter whether a chat model gives its content or a reviser hands it on as it is. -/
theorem result_chat_eq_result_prepared (settings : Settings) :
    (∀ t, firstBlock (firstBlock t) = firstBlock t) ∧
      ∀ (r : Request) (content reason : Text) (body : Body),
        body.read = .ok (contentOnly content) →
        ∀ (useModel : Bool) (s s' : Supply), ∃ v,
          (Improver.handle settings ⟨true, none⟩
            { s with replies := .response 200 reason body :: s.replies } r).1.result = .ok v ∧
          (Improver.handle settings ⟨useModel, some .prepared⟩
            { s' with answers := .ok (.text content) :: s'.answers } r).1.result = .ok v := by
  refine ⟨firstBlock_firstBlock, ?_⟩
  intro r content reason body hbody useModel s s'
  obtain ⟨v, hv⟩ := exists_improve_text settings.minLength r content
  have hprepared : (Improver.equipped settings ⟨useModel, some .prepared⟩).reviser =
      some .prepared := rfl
  refine ⟨v, ?_, ?_⟩
  · rw [← hv]
    exact result_of_content rfl (Reply.content?_contentOnly hbody reason)
  · rw [← hv]
    exact result_of_reviser hprepared

/-- The content opens a fence with four backticks and does not close it: three of them are taken
off, and the fourth is not. -/
theorem result_chat_eq_result_prepared_unclosed :
    let content : Text := "````mermaid\ngraph TD\n    a[Start] --> b"
    let request : Request := ⟨some "graph TD\n    a[Start -- > b", none, none⟩
    ∃ v,
      (Improver.handle Settings.standard ⟨true, none⟩
        ⟨[], [.response 200 [] (.value (contentOnly content))]⟩ request).1.result = .ok v ∧
      (Improver.handle Settings.standard ⟨false, some .prepared⟩
        ⟨[.ok (.text content)], []⟩ request).1.result = .ok v ∧
      v.revised = true ∧ v.code = Text.ofString "`mermaid\ngraph TD\n    a[Start] --> b" := by
  intro content request
  have hopen : request.IsOpen Settings.standard.minLength := by decide +kernel
  have hcode : Repair.revision? (.ok (.text content)) =
      some "`mermaid\ngraph TD\n    a[Start] --> b" := by decide +kernel
  clear_value content request
  obtain ⟨v, hchat, hprepared⟩ := (result_chat_eq_result_prepared Settings.standard).2 request
    content [] (.value (contentOnly content)) rfl false ⟨[], []⟩ ⟨[], []⟩
  refine ⟨v, hchat, hprepared, ?_⟩
  rw [handle_of_isOpen_some hopen rfl] at hprepared
  obtain rfl := Except.ok.inj ((Draft.finish_of_revision hcode _ _).symm.trans hprepared)
  exact ⟨rfl, rfl⟩

end Improver

end FlowDiagram.Repair
