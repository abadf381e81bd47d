import FlowDiagram.Repair.Session

/-!
# The stages of a repair

What each stage comes to is said here once. A request is settled by its bare code or by its cleaned
code where one of them is valid, and stays open otherwise. An answer then either ends the repair
with a failure, or leaves a revision, or leaves the draft as it was.
-/

namespace FlowDiagram.Repair
open FlowDiagram.Text FlowDiagram.Code

/-! ### Before a reviser is asked -/

namespace Request

def cleanCode (r : Request) : Text := clean r.bareCode

/-- Neither the bare nor the cleaned code is valid, so that a reviser is needed. -/
def IsOpen (minLength : Int) (r : Request) : Prop :=
  (validate minLength (some r.bareCode)).isValid = false ∧
    (validate minLength (some r.cleanCode)).isValid = false

instance (minLength : Int) : DecidablePred (IsOpen minLength) :=
  fun _ => inferInstanceAs (Decidable (_ ∧ _))

def cleaningNotes (r : Request) : List Note := if r.cleanCode = r.bareCode then [] else [.repaired]

def openPrompt (minLength : Int) (r : Request) : Text :=
  prompt r.cleanCode (validate minLength (some r.cleanCode)).messages r.title r.context

def taken (minLength : Int) (r : Request) : Improvement where
  code := r.bareCode
  verdict := validate minLength (some r.bareCode)
  confidence := .alreadyValid
  notes := [.alreadyValid]
  revised := false

def repaired (minLength : Int) (r : Request) : Improvement where
  code := r.cleanCode
  verdict := validate minLength (some r.cleanCode)
  confidence := .cleanedValid
  notes := [.repaired]
  revised := false

def draft (minLength : Int) (r : Request) : Draft where
  code := r.cleanCode
  verdict := validate minLength (some r.cleanCode)
  notes := r.cleaningNotes

variable {minLength : Int} {r : Request}

theorem triage_of_bareCode (h : (validate minLength (some r.bareCode)).isValid = true) :
    r.triage minLength = .settled (r.taken minLength) := by
  simp only [triage, h, if_true]
  rfl

theorem cleanCode_ne (hbare : (validate minLength (some r.bareCode)).isValid = false)
    (hclean : (validate minLength (some r.cleanCode)).isValid = true) :
    r.cleanCode ≠ r.bareCode := by
  intro heq
  rw [heq, hbare] at hclean
  exact absurd hclean (by decide)

theorem triage_of_cleanCode (hbare : (validate minLength (some r.bareCode)).isValid = false)
    (hclean : (validate minLength (some r.cleanCode)).isValid = true) :
    r.triage minLength = .settled (r.repaired minLength) := by
  have hne := cleanCode_ne hbare hclean
  unfold cleanCode at hne hclean
  simp only [triage, hbare, hclean, beq_iff_eq, if_neg hne, Bool.false_eq_true, if_false, if_true]
  rfl

theorem triage_of_isOpen (h : r.IsOpen minLength) :
    r.triage minLength = .unsettled (r.draft minLength) := by
  obtain ⟨hbare, hclean⟩ := h
  unfold draft cleaningNotes
  unfold cleanCode at hclean ⊢
  by_cases heq : clean r.bareCode = r.bareCode
  · simp only [triage, heq, hbare, beq_self_eq_true, Bool.false_eq_true, if_false, if_true]
  · simp only [triage, hbare, hclean, beq_iff_eq, if_neg heq, Bool.false_eq_true, if_false]

theorem promptFor_draft (minLength : Int) (r : Request) :
    r.promptFor (r.draft minLength) = r.openPrompt minLength := by
  simp only [promptFor, draft, openPrompt]

theorem improve_of_isOpen (h : r.IsOpen minLength) (ask : Text → Except Failure Json) :
    improve minLength (some ask) r =
      (r.draft minLength).finish minLength (ask (r.openPrompt minLength)) := by
  simp only [improve, r.triage_of_isOpen h, promptFor_draft]

theorem valid_or_isOpen (minLength : Int) (r : Request) :
    (validate minLength (some r.bareCode)).isValid = true ∨
      ((validate minLength (some r.bareCode)).isValid = false ∧
        (validate minLength (some r.cleanCode)).isValid = true) ∨
      r.IsOpen minLength := by
  unfold IsOpen
  cases (validate minLength (some r.bareCode)).isValid <;>
    cases (validate minLength (some r.cleanCode)).isValid <;> simp

theorem exists_improve_of_not_isOpen (h : ¬ r.IsOpen minLength)
    (reviser : Option (Text → Except Failure Json)) :
    ∃ v, improve minLength reviser r = .ok v := by
  unfold improve
  rcases r.valid_or_isOpen minLength with hbare | ⟨hbare, hclean⟩ | hopen
  · exact ⟨r.taken minLength, by rw [triage_of_bareCode hbare]⟩
  · exact ⟨r.repaired minLength, by rw [triage_of_cleanCode hbare hclean]⟩
  · exact absurd hopen h

end Request

/-! ### The answer of a reviser -/

/-- A value in which code can be looked for: a text, or nothing at all. -/
def isSearchable (value : Json) : Bool :=
  match value with
  | .text _ => true
  | other => other.isVoid

def blockIn (value : Json) : Text :=
  match value with
  | .text t => firstBlock t
  | _ => []

theorem codeOf_eq (value : Json) :
    codeOf value =
      if isSearchable value then .ok (blockIn value) else .error ⟨.wrongType, none⟩ := by
  cases value <;> rfl

/-- The failure with which an answer ends the repair. -/
def escaping? (answer : Except Failure Json) : Option Failure :=
  match answer with
  | .error f => if f.kind.isAbsorbed then none else some f
  | .ok value => if isSearchable value then none else some ⟨.wrongType, none⟩

/-- The code in an answer, cleaned, unless nothing is left of it. -/
def revision? (answer : Except Failure Json) : Option Text :=
  match answer with
  | .error _ => none
  | .ok value =>
    if clean (blockIn value) = [] then none else some (clean (blockIn value))

def missNote (answer : Except Failure Json) : Note :=
  match answer with
  | .error _ => .revisionFailed
  | .ok _ => .revisionEmpty

/-- An answer ends the repair, or it replaces the draft, or the draft is kept. -/
theorem Draft.finish_eq (minLength : Int) (d : Draft) (answer : Except Failure Json) :
    d.finish minLength answer =
      match escaping? answer with
      | some f => .error f
      | none =>
        match revision? answer with
        | some code => .ok (d.replace minLength code)
        | none => .ok (d.keep [missNote answer]) := by
  cases answer with
  | error f => cases h : f.kind.isAbsorbed <;> simp [finish, escaping?, revision?, missNote, h]
  | ok value =>
    cases h : isSearchable value with
    | false =>
      have hcode : codeOf value = .error ⟨.wrongType, none⟩ := by
        rw [codeOf_eq, h, if_neg Bool.false_ne_true]
      simp only [finish, escaping?, h, hcode, Bool.false_eq_true, if_false]
      rfl
    | true =>
      have hcode : codeOf value = .ok (blockIn value) := by rw [codeOf_eq, h, if_pos rfl]
      have hstep : d.finish minLength (.ok value) =
          if (clean (blockIn value)).isEmpty then .ok (d.keep [.revisionEmpty])
          else .ok (d.replace minLength (clean (blockIn value))) := by
        simp only [finish, hcode]
        rfl
      rw [hstep]
      by_cases hempty : clean (blockIn value) = []
      · simp [escaping?, revision?, missNote, h, hempty]
      · simp [escaping?, revision?, h, hempty]

theorem Draft.finish_of_revision {answer : Except Failure Json} {code : Text}
    (h : revision? answer = some code) (minLength : Int) (d : Draft) :
    d.finish minLength answer = .ok (d.replace minLength code) := by
  have hnone : escaping? answer = none := by
    cases answer with
    | error f => exact absurd h (by simp [revision?])
    | ok value =>
      cases value with
      | text t => rfl
      | _ => exact absurd h (by simp [revision?, blockIn])
  rw [finish_eq, hnone, h]

/-! ### Asking -/

def Reviser.inquiry (reviser : Reviser) (prompt : Text) : Inquiry :=
  match reviser with
  | prepared => ⟨[prompt], []⟩
  | chat model => ⟨[], [model.post prompt]⟩

def Inquiry.size (q : Inquiry) : Nat := q.prompts.length + q.posts.length

theorem Reviser.size_inquiry (reviser : Reviser) (prompt : Text) :
    (reviser.inquiry prompt).size = 1 := by
  cases reviser <;> rfl

/-- The answer that a reviser has for the next prompt. -/
def Reviser.answer (reviser : Reviser) (s : Supply) : Except Failure Json :=
  match reviser with
  | prepared => s.nextAnswer.1
  | chat model => (model.receive s.nextReply.1).map Json.text

/-- What is left for a reviser that has been asked. -/
def Reviser.spend (reviser : Reviser) (s : Supply) : Supply :=
  match reviser with
  | prepared => { s with answers := s.answers.drop 1 }
  | chat _ => { s with replies := s.replies.drop 1 }

/-- The answer does not depend on the prompt, and an empty supply stays empty. -/
theorem Reviser.ask_eq (reviser : Reviser) (prompt : Text) (s : Supply) :
    reviser.ask prompt s = (reviser.answer s, reviser.inquiry prompt, reviser.spend s) := by
  obtain ⟨answers, replies⟩ := s
  cases reviser with
  | prepared => cases answers <;> rfl
  | chat model => cases replies <;> rfl

/-! ### The improver -/

namespace Improver
variable {settings : Settings} {i : Improver} {s : Supply} {r : Request}

theorem reviser_equipped (settings : Settings) (i : Improver) :
    (i.equipped settings).reviser =
      i.reviser.or (if i.useModel then some (.chat (.ofSettings settings)) else none) := by
  obtain ⟨useModel, reviser⟩ := i
  cases reviser <;> cases useModel <;> rfl

theorem result_of_reviser {reviser : Reviser}
    (h : (i.equipped settings).reviser = some reviser) :
    (i.handle settings s r).1.result =
      improve settings.minLength (some fun _ => reviser.answer s) r := by
  simp only [handle_result, h, Option.map_some, reviser.ask_eq]

theorem handle_of_settled {v : Improvement} (h : r.triage settings.minLength = .settled v) :
    i.handle settings s r = (⟨.ok v, .none, i.reviser.isSome⟩, i, s) := by
  simp only [handle, h]

theorem handle_of_isOpen_none (h : r.IsOpen settings.minLength)
    (hreviser : (i.equipped settings).reviser = none) :
    i.handle settings s r =
      (⟨.ok ((r.draft settings.minLength).keep []), .none, false⟩, i.equipped settings, s) := by
  simp only [handle, r.triage_of_isOpen h, hreviser]

theorem handle_of_isOpen_some (h : r.IsOpen settings.minLength) {reviser : Reviser}
    (hreviser : (i.equipped settings).reviser = some reviser) :
    i.handle settings s r =
      (⟨(r.draft settings.minLength).finish settings.minLength (reviser.answer s),
          reviser.inquiry (r.openPrompt settings.minLength), true⟩,
        i.equipped settings, reviser.spend s) := by
  simp only [handle, r.triage_of_isOpen h, hreviser, reviser.ask_eq, Request.promptFor_draft]

/-- All that handling a request can do. -/
theorem handle_cases (settings : Settings) (i : Improver) (s : Supply) (r : Request) :
    ((validate settings.minLength (some r.bareCode)).isValid = true ∧
      i.handle settings s r =
        (⟨.ok (r.taken settings.minLength), .none, i.reviser.isSome⟩, i, s)) ∨
    (((validate settings.minLength (some r.bareCode)).isValid = false ∧
        (validate settings.minLength (some r.cleanCode)).isValid = true) ∧
      i.handle settings s r =
        (⟨.ok (r.repaired settings.minLength), .none, i.reviser.isSome⟩, i, s)) ∨
    (r.IsOpen settings.minLength ∧ (i.equipped settings).reviser = none ∧
      i.handle settings s r =
        (⟨.ok ((r.draft settings.minLength).keep []), .none, false⟩, i.equipped settings, s)) ∨
    (r.IsOpen settings.minLength ∧ ∃ reviser, (i.equipped settings).reviser = some reviser ∧
      i.handle settings s r =
        (⟨(r.draft settings.minLength).finish settings.minLength (reviser.answer s),
            reviser.inquiry (r.openPrompt settings.minLength), true⟩,
          i.equipped settings, reviser.spend s)) := by
  rcases r.valid_or_isOpen settings.minLength with hbare | ⟨hbare, hclean⟩ | hopen
  · exact Or.inl ⟨hbare, handle_of_settled (Request.triage_of_bareCode hbare)⟩
  · exact Or.inr (Or.inl ⟨⟨hbare, hclean⟩,
      handle_of_settled (Request.triage_of_cleanCode hbare hclean)⟩)
  · cases hreviser : (i.equipped settings).reviser with
    | none =>
      exact Or.inr (Or.inr (Or.inl ⟨hopen, rfl, handle_of_isOpen_none hopen hreviser⟩))
    | some reviser =>
      exact Or.inr (Or.inr (Or.inr ⟨hopen, reviser, rfl, handle_of_isOpen_some hopen hreviser⟩))

/-! ### What does not depend on an answer -/

/-- The reviser that is asked about a request, if anyone is. -/
def asked (settings : Settings) (i : Improver) (r : Request) : Option Reviser :=
  if r.IsOpen settings.minLength then (i.equipped settings).reviser else none

theorem asked_of_isOpen (h : r.IsOpen settings.minLength) :
    i.asked settings r = (i.equipped settings).reviser := if_pos h

theorem asked_of_valid (h : (validate settings.minLength (some r.bareCode)).isValid = true ∨
    (validate settings.minLength (some r.cleanCode)).isValid = true) :
    i.asked settings r = none := by
  refine if_neg fun hopen => ?_
  simp [hopen.1, hopen.2] at h

/-- Only the reviser that is asked is told anything and spends anything. -/
theorem exchange_handle (settings : Settings) (i : Improver) (s : Supply) (r : Request) :
    ((i.handle settings s r).1.inquiry, (i.handle settings s r).2.2) =
      (i.asked settings r).elim (.none, s) fun reviser =>
        (reviser.inquiry (r.openPrompt settings.minLength), reviser.spend s) := by
  rcases i.handle_cases settings s r with ⟨hbare, h⟩ | ⟨⟨-, hclean⟩, h⟩ | ⟨hopen, hreviser, h⟩ |
    ⟨hopen, reviser, hreviser, h⟩
  · simp only [h, asked_of_valid (Or.inl hbare), Option.elim_none]
  · simp only [h, asked_of_valid (Or.inr hclean), Option.elim_none]
  · simp only [h, asked_of_isOpen hopen, hreviser, Option.elim_none]
  · simp only [h, asked_of_isOpen hopen, hreviser, Option.elim_some]

theorem inquiry_handle (settings : Settings) (i : Improver) (s : Supply) (r : Request) :
    (i.handle settings s r).1.inquiry =
      (i.asked settings r).elim .none fun reviser =>
        reviser.inquiry (r.openPrompt settings.minLength) := by
  have h := congrArg Prod.fst (exchange_handle settings i s r)
  cases hasked : i.asked settings r <;> rw [hasked] at h <;> exact h

theorem supply_handle (settings : Settings) (i : Improver) (s : Supply) (r : Request) :
    (i.handle settings s r).2.2 = (i.asked settings r).elim s fun reviser => reviser.spend s := by
  have h := congrArg Prod.snd (exchange_handle settings i s r)
  cases hasked : i.asked settings r <;> rw [hasked] at h <;> exact h

theorem size_inquiry_handle (settings : Settings) (i : Improver) (s : Supply) (r : Request) :
    (i.handle settings s r).1.inquiry.size = if (i.asked settings r).isSome then 1 else 0 := by
  rw [inquiry_handle]
  cases i.asked settings r with
  | none => rfl
  | some reviser => exact reviser.size_inquiry _

/-- An improver is equipped for the first open request and never changes otherwise. -/
theorem improver_handle (settings : Settings) (i : Improver) (s : Supply) (r : Request) :
    (i.handle settings s r).2.1 =
      if r.IsOpen settings.minLength then i.equipped settings else i := by
  rcases i.handle_cases settings s r with ⟨hbare, h⟩ | ⟨⟨-, hclean⟩, h⟩ | ⟨hopen, -, h⟩ |
    ⟨hopen, _, -, h⟩
  · rw [h, if_neg fun hopen => by simp [hopen.1] at hbare]
  · rw [h, if_neg fun hopen => by simp [hopen.2] at hclean]
  · rw [h, if_pos hopen]
  · rw [h, if_pos hopen]

end Improver

end FlowDiagram.Repair
