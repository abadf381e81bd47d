import FlowDiagram.Proofs.Repair.Stages

/-!
# What an improvement says fits together

Verdict, confidence, notes and flag of an improvement are set in several places. In all of them the
verdict is the one on the code that is given back, the confidence tells which code that is, and a
reviser has been asked only about code that cleaning could not make valid.
-/

namespace FlowDiagram.Repair
open FlowDiagram.Text FlowDiagram.Code

/-! ### Which code comes out -/

/-- The code that an open request comes to and how far it can be trusted, with what is left of an
answer. -/
def Request.openOutcome (minLength : Int) (r : Request) : Option Text → Text × Confidence
  | some code =>
    (code, if (validate minLength (some code)).isValid then .revisedValid else .revisedInvalid)
  | none => (r.cleanCode, .unfixed)

def Request.outcome (minLength : Int) (r : Request) (revision : Option Text) : Text × Confidence :=
  if (validate minLength (some r.bareCode)).isValid then (r.bareCode, .alreadyValid)
  else if r.cleanCode ≠ r.bareCode ∧ (validate minLength (some r.cleanCode)).isValid then
    (r.cleanCode, .cleanedValid)
  else r.openOutcome minLength revision

section
variable {minLength : Int} {r : Request}

theorem Request.outcome_of_bareCode (h : (validate minLength (some r.bareCode)).isValid = true)
    (revision : Option Text) : r.outcome minLength revision = (r.bareCode, .alreadyValid) := by
  rw [outcome, if_pos h]

theorem Request.outcome_of_cleanCode
    (hbare : (validate minLength (some r.bareCode)).isValid = false)
    (hclean : (validate minLength (some r.cleanCode)).isValid = true) (revision : Option Text) :
    r.outcome minLength revision = (r.cleanCode, .cleanedValid) := by
  rw [outcome, if_neg (Bool.eq_false_iff.1 hbare), if_pos ⟨cleanCode_ne hbare hclean, hclean⟩]

theorem Request.outcome_of_isOpen (h : r.IsOpen minLength) (revision : Option Text) :
    r.outcome minLength revision = r.openOutcome minLength revision := by
  have hclean : ¬ (r.cleanCode ≠ r.bareCode ∧
      (validate minLength (some r.cleanCode)).isValid = true) := by
    rw [h.2]
    simp
  rw [outcome, if_neg (Bool.eq_false_iff.1 h.1), if_neg hclean]

end

/-! ### How far it can be trusted -/

def trustOfValid : List Text := ["0.95", "0.85", "0.5"]

def trustOfRevised : List Text := ["0.85", "0.4"]

theorem text_mem_trustOfValid_iff {c : Confidence} :
    c.text ∈ trustOfValid ↔ c = .alreadyValid ∨ c = .revisedValid ∨ c = .cleanedValid := by
  cases c <;> decide

theorem text_mem_trustOfRevised_iff {c : Confidence} :
    c.text ∈ trustOfRevised ↔ c = .revisedValid ∨ c = .revisedInvalid := by
  cases c <;> decide

/-! ### The parts of an improvement -/

/-- The notes that only an answer can lead to. -/
def revisionNotes : List Note := [.revised, .revisionFailed, .revisionEmpty]

structure Coherent (minLength : Int) (r : Request) (revision : Option Text) (v : Improvement) :
    Prop where
  verdict : v.verdict = validate minLength (some v.code)
  outcome : (v.code, v.confidence) = r.outcome minLength revision
  isValid_iff : v.verdict.isValid = true ↔ v.confidence.text ∈ trustOfValid
  revised_iff : v.revised = true ↔ v.confidence.text ∈ trustOfRevised
  /-- The note on cleaning is there when something was cleaned, before the notes on an answer. -/
  notes : v.confidence ≠ .alreadyValid →
    ∃ rest, v.notes = r.cleaningNotes ++ rest ∧ ∀ note ∈ rest, note ∈ revisionNotes

section
variable {minLength : Int} {r : Request}

theorem coherent_taken (h : (validate minLength (some r.bareCode)).isValid = true)
    (revision : Option Text) : Coherent minLength r revision (r.taken minLength) where
  verdict := by simp only [Request.taken]
  outcome := by simp only [Request.taken, Request.outcome_of_bareCode h]
  isValid_iff := by simp [Request.taken, h, text_mem_trustOfValid_iff]
  revised_iff := by simp [Request.taken, text_mem_trustOfRevised_iff]
  notes hne := absurd rfl hne

theorem coherent_repaired (hbare : (validate minLength (some r.bareCode)).isValid = false)
    (hclean : (validate minLength (some r.cleanCode)).isValid = true) (revision : Option Text) :
    Coherent minLength r revision (r.repaired minLength) where
  verdict := by simp only [Request.repaired]
  outcome := by simp only [Request.repaired, Request.outcome_of_cleanCode hbare hclean]
  isValid_iff := by simp [Request.repaired, hclean, text_mem_trustOfValid_iff]
  revised_iff := by simp [Request.repaired, text_mem_trustOfRevised_iff]
  notes _ := by
    refine ⟨[], ?_, by simp⟩
    rw [Request.cleaningNotes, if_neg (Request.cleanCode_ne hbare hclean)]
    rfl

theorem coherent_keep (h : r.IsOpen minLength) {rest : List Note}
    (hrest : ∀ note ∈ rest, note ∈ revisionNotes) :
    Coherent minLength r none ((r.draft minLength).keep rest) where
  verdict := by simp only [Request.draft, Draft.keep]
  outcome := by
    simp only [Request.draft, Draft.keep, Request.outcome_of_isOpen h, Request.openOutcome]
  isValid_iff := by simp [Request.draft, Draft.keep, h.2, text_mem_trustOfValid_iff]
  revised_iff := by simp [Draft.keep, text_mem_trustOfRevised_iff]
  notes _ := ⟨rest, by simp only [Request.draft, Draft.keep], hrest⟩

theorem coherent_replace (h : r.IsOpen minLength) (code : Text) :
    Coherent minLength r (some code) ((r.draft minLength).replace minLength code) where
  verdict := by simp only [Draft.replace]
  outcome := by simp only [Draft.replace, Request.outcome_of_isOpen h, Request.openOutcome]
  isValid_iff := by
    cases hvalid : (validate minLength (some code)).isValid <;>
      simp [Draft.replace, hvalid, text_mem_trustOfValid_iff]
  revised_iff := by
    cases hvalid : (validate minLength (some code)).isValid <;>
      simp [Draft.replace, hvalid, text_mem_trustOfRevised_iff]
  notes _ := ⟨[.revised], by simp only [Request.draft, Draft.replace], by decide⟩

end

/-! ### Requests -/

/-- What is left for an improver of the answer that it would get now. -/
def Improver.revision? (settings : Settings) (i : Improver) (s : Supply) : Option Text :=
  (i.equipped settings).reviser.bind fun reviser => Repair.revision? (reviser.answer s)

namespace Improver
variable {settings : Settings} {i : Improver} {s : Supply} {r : Request} {v : Improvement}

theorem coherent_result (hv : (i.handle settings s r).1.result = .ok v) :
    Coherent settings.minLength r (i.revision? settings s) v := by
  rcases i.handle_cases settings s r with ⟨hbare, h⟩ | ⟨⟨hbare, hclean⟩, h⟩ |
    ⟨hopen, hreviser, h⟩ | ⟨hopen, reviser, hreviser, h⟩
  · rw [h] at hv
    obtain rfl := Except.ok.inj hv
    exact coherent_taken hbare _
  · rw [h] at hv
    obtain rfl := Except.ok.inj hv
    exact coherent_repaired hbare hclean _
  · rw [h] at hv
    obtain rfl := Except.ok.inj hv
    rw [revision?, hreviser]
    exact coherent_keep hopen (by simp)
  · rw [h] at hv
    simp only [Draft.finish_eq] at hv
    rw [revision?, hreviser, Option.bind_some]
    split at hv
    · exact absurd hv (by simp)
    · split at hv
      · rename_i code hcode
        obtain rfl := Except.ok.inj hv
        rw [hcode]
        exact coherent_replace hopen code
      · rename_i hcode
        obtain rfl := Except.ok.inj hv
        rw [hcode]
        refine coherent_keep hopen ?_
        cases reviser.answer s <;> simp [missNote, revisionNotes]

theorem size_inquiry_le_one (settings : Settings) (i : Improver) (s : Supply) (r : Request) :
    (i.handle settings s r).1.inquiry.size ≤ 1 := by
  rw [size_inquiry_handle]
  split
  · exact Nat.le_refl 1
  · exact Nat.zero_le 1

/-- Someone is asked at most once, about code that is not valid, and with its problems. -/
theorem coherent_of_result_eq_ok (hv : (i.handle settings s r).1.result = .ok v) :
    let inquiry := (i.handle settings s r).1.inquiry
    Coherent settings.minLength r (i.revision? settings s) v ∧
      inquiry.size ≤ 1 ∧
      ((validate settings.minLength (some r.bareCode)).isValid = true ∨
        (validate settings.minLength (some r.cleanCode)).isValid = true → inquiry = .none) ∧
      (inquiry = .none ∨ ∃ reviser, (i.equipped settings).reviser = some reviser ∧
        inquiry = reviser.inquiry (prompt r.cleanCode
          (validate settings.minLength (some r.cleanCode)).messages r.title r.context)) := by
  refine ⟨coherent_result hv, size_inquiry_le_one settings i s r, ?_, ?_⟩
  · intro hvalid
    rw [inquiry_handle, asked_of_valid hvalid, Option.elim_none]
  · rw [inquiry_handle]
    by_cases hopen : r.IsOpen settings.minLength
    · rw [asked_of_isOpen hopen]
      cases (i.equipped settings).reviser with
      | none => exact Or.inl rfl
      | some reviser => exact Or.inr ⟨reviser, rfl, rfl⟩
    · exact Or.inl (by rw [asked, if_neg hopen, Option.elim_none])

/-- Cleaning closes up the arrow, and the reviser closes the bracket. -/
theorem coherent_of_result_eq_ok_revised :
    let supply : Supply := ⟨[.ok (.text "```\ngraph TD\n    a[Start] --> b\n```")], []⟩
    let request : Request := ⟨some "graph TD\n    a[Start -- > b", some "Start", none⟩
    ∃ v, (Improver.handle Settings.standard ⟨false, some .prepared⟩ supply request).1.result =
        .ok v ∧
      v.code = Text.ofString "graph TD\n    a[Start] --> b" ∧
      v.confidence.text = Text.ofString "0.85" ∧ v.notes = [.repaired, .revised] ∧
      Coherent Settings.standard.minLength request
        (Improver.revision? Settings.standard ⟨false, some .prepared⟩ supply) v := by
  intro supply request
  have hopen : request.IsOpen Settings.standard.minLength := by decide +kernel
  have hcode : Repair.revision? (Reviser.prepared.answer supply) =
      some "graph TD\n    a[Start] --> b" := by decide +kernel
  have hv : (Improver.handle Settings.standard ⟨false, some .prepared⟩ supply request).1.result =
      .ok ((request.draft Settings.standard.minLength).replace Settings.standard.minLength
        "graph TD\n    a[Start] --> b") := by
    rw [handle_of_isOpen_some hopen rfl, Draft.finish_of_revision hcode]
  refine ⟨_, hv, rfl, ?_, ?_, (coherent_of_result_eq_ok hv).1⟩
  · decide +kernel
  · decide +kernel

end Improver

end FlowDiagram.Repair
