import FlowDiagram.Proofs.Code.Leftover
import FlowDiagram.Proofs.Repair.Coherence

/-!
# Fences in improved code

Code is judged without the fence around it, and given back as it stands. So a valid improvement has
either its header or one more fence at the start, and such a fence was there before: in the request
under its outer fence, or in an answer in which no block is closed.
-/

namespace FlowDiagram.Repair
open FlowDiagram.Text FlowDiagram.Code

theorem exists_of_revision? {answer : Except Failure Json} {code : Text}
    (h : revision? answer = some code) :
    ∃ t, answer = .ok (.text t) ∧ code = clean (firstBlock t) := by
  cases answer with
  | error f => exact absurd h (by simp [revision?])
  | ok value =>
    cases value with
    | text t =>
      unfold revision? at h
      simp only at h
      split at h
      · exact absurd h (by simp)
      · exact ⟨t, rfl, (Option.some.inj h).symm⟩
    | _ => exact absurd h (by simp [revision?, blockIn])

/-! ### The code of an improvement -/

namespace Coherent
variable {minLength : Int} {r : Request} {revision : Option Text} {v : Improvement}

/-- The flag tells whose code it is. -/
theorem code_cases (h : Coherent minLength r revision v) :
    (v.revised = false ∧ (v.code = r.bareCode ∨ v.code = r.cleanCode)) ∨
      (v.revised = true ∧ revision = some v.code) := by
  have hrevised := h.revised_iff
  rw [text_mem_trustOfRevised_iff] at hrevised
  have houtcome := h.outcome
  unfold Request.outcome at houtcome
  split at houtcome
  · obtain ⟨hcode, hconfidence⟩ := Prod.mk.inj houtcome
    exact Or.inl ⟨by simpa [hconfidence] using hrevised, Or.inl hcode⟩
  · split at houtcome
    · obtain ⟨hcode, hconfidence⟩ := Prod.mk.inj houtcome
      exact Or.inl ⟨by simpa [hconfidence] using hrevised, Or.inr hcode⟩
    · cases revision with
      | none =>
        obtain ⟨hcode, hconfidence⟩ := Prod.mk.inj houtcome
        exact Or.inl ⟨by simpa [hconfidence] using hrevised, Or.inr hcode⟩
      | some code =>
        obtain ⟨hcode, hconfidence⟩ := Prod.mk.inj houtcome
        refine Or.inr ⟨hrevised.2 ?_, congrArg some hcode.symm⟩
        rw [hconfidence]
        split
        · exact Or.inl rfl
        · exact Or.inr rfl

theorem startsDiagram_unfence (h : Coherent minLength r revision v)
    (hvalid : v.verdict.isValid = true) : StartsDiagram (unfence v.code) := by
  rw [h.verdict] at hvalid
  obtain ⟨t, ht, hformed⟩ := wellFormed_of_isValid hvalid
  obtain rfl := Option.some.inj ht
  exact typeRule_eq_none_iff.1 hformed.type

end Coherent

namespace Improver
variable {settings : Settings} {i : Improver} {s : Supply} {r : Request} {v : Improvement}

/-- A fence is left where the code of an improvement was taken from: in the code of the request, or
in an answer without a closed block. -/
def FenceLeft (settings : Settings) (i : Improver) (s : Supply) (r : Request) (v : Improvement) :
    Prop :=
  (v.revised = false ∧ fence <:+: r.bareCode) ∨
    (v.revised = true ∧ ∃ reviser t, (i.equipped settings).reviser = some reviser ∧
      reviser.answer s = .ok (.text t) ∧ closedBlock? t = none ∧ fence <:+: t)

theorem fenceLeft_of_result (hv : (i.handle settings s r).1.result = .ok v)
    (hfence : fence <:+: v.code) : i.FenceLeft settings s r v := by
  rcases (coherent_result hv).code_cases with ⟨hrevised, hcode⟩ | ⟨hrevised, hrevision⟩
  · refine Or.inl ⟨hrevised, ?_⟩
    rcases hcode with hcode | hcode
    · rwa [hcode] at hfence
    · rw [hcode] at hfence
      exact fence_infix_of_clean hfence
  · obtain ⟨reviser, hreviser, hanswer⟩ := Option.bind_eq_some_iff.1 hrevision
    obtain ⟨t, ht, hcode⟩ := exists_of_revision? hanswer
    rw [hcode] at hfence
    obtain ⟨hblock, hin⟩ := fence_infix_of_firstBlock (fence_infix_of_clean hfence)
    exact Or.inr ⟨hrevised, reviser, t, hreviser, ht, hblock, hin⟩

/-- A valid improvement starts with a diagram type as it stands, unless a fence is left there. -/
theorem startsDiagram_iff_of_isValid (hv : (i.handle settings s r).1.result = .ok v)
    (hvalid : v.verdict.isValid = true) :
    (StartsDiagram (trim v.code) ↔ ¬ fence <+: trim v.code) ∧
      (¬ StartsDiagram (trim v.code) → i.FenceLeft settings s r v) := by
  have hiff := startsDiagram_trim_iff ((coherent_result hv).startsDiagram_unfence hvalid)
  refine ⟨hiff, fun hnot => fenceLeft_of_result hv ?_⟩
  have hfence : fence <+: trim v.code := Decidable.not_not.1 (mt hiff.2 hnot)
  obtain ⟨l, r, -, -, htrim, -⟩ := exists_trim v.code
  exact hfence.isInfix.trans ⟨l, r, htrim.symm⟩

/-- The one fence around the request is gone. -/
theorem startsDiagram_iff_of_isValid_fenced :
    let request : Request := ⟨some "```mermaid\ngraph TD\n    a --> b\n```", none, none⟩
    ∃ v, (Improver.handle Settings.standard ⟨false, none⟩ ⟨[], []⟩ request).1.result = .ok v ∧
      v.verdict.isValid = true ∧ StartsDiagram (trim v.code) := by
  intro request
  have hvalid : (validate Settings.standard.minLength (some request.bareCode)).isValid = true := by
    decide +kernel
  have hfence : ¬ fence <+: trim request.bareCode := by decide +kernel
  clear_value request
  have hv : (Improver.handle Settings.standard ⟨false, none⟩ ⟨[], []⟩ request).1.result =
      .ok (request.taken Settings.standard.minLength) := by
    rw [handle_of_settled (Request.triage_of_bareCode hvalid)]
  exact ⟨_, hv, hvalid, (startsDiagram_iff_of_isValid hv hvalid).1.2 hfence⟩

/-- Of two fences around the request the inner one is left, and the code behind it is valid. -/
theorem not_startsDiagram_two_fences :
    let request : Request := ⟨some "```\n```mermaid\ngraph TD\n    a --> b\n```\n```", none, none⟩
    ∃ v, (Improver.handle Settings.standard ⟨false, none⟩ ⟨[], []⟩ request).1.result = .ok v ∧
      v.verdict.isValid = true ∧ v.code = Text.ofString "```mermaid\ngraph TD\n    a --> b\n```" ∧
      ¬ StartsDiagram (trim v.code) := by
  intro request
  have hvalid : (validate Settings.standard.minLength (some request.bareCode)).isValid = true := by
    decide +kernel
  have hcode : request.bareCode = Text.ofString "```mermaid\ngraph TD\n    a --> b\n```" := by
    decide +kernel
  have hfence : fence <+: trim request.bareCode := by decide +kernel
  clear_value request
  have hv : (Improver.handle Settings.standard ⟨false, none⟩ ⟨[], []⟩ request).1.result =
      .ok (request.taken Settings.standard.minLength) := by
    rw [handle_of_settled (Request.triage_of_bareCode hvalid)]
  exact ⟨_, hv, hvalid, hcode, fun h => h.not_fence hfence⟩

end Improver

end FlowDiagram.Repair
