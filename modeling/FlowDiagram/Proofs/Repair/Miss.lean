import FlowDiagram.Proofs.Code.Steps
import FlowDiagram.Proofs.Code.Tag
import FlowDiagram.Proofs.Repair.Stages

/-!
# Answers that miss

A reviser misses if it fails in an absorbed way or if no code is left of what it gives. The
improvement is then the one that there is without a reviser, and at most one note tells of the miss.
-/

namespace FlowDiagram.Repair
open FlowDiagram.Text FlowDiagram.Code

/-- An absorbed failure, or a value in which there is no code once it is cleaned. -/
inductive Misses : Except Failure Json → Prop
  | failed {f : Failure} (h : f.kind.isAbsorbed = true) : Misses (.error f)
  | empty {value : Json} {code : Text} (hcode : codeOf value = .ok code)
      (hclean : clean code = []) : Misses (.ok value)

/-- Which values miss: void ones, and texts in which no code is found. -/
theorem misses_ok_iff {value : Json} :
    Misses (.ok value) ↔ value.isVoid = true ∨ ∃ t, value = .text t ∧ firstBlock t = [] := by
  constructor
  · intro h
    cases h with
    | empty hcode hclean =>
      rw [clean_eq_nil_iff] at hclean
      cases value with
      | text t => exact Or.inr ⟨t, rfl, (Except.ok.inj hcode).trans hclean⟩
      | _ =>
        left
        by_contra hvoid
        simp only [codeOf, if_neg hvoid] at hcode
        cases hcode
  · intro h
    rcases h with hvoid | ⟨t, rfl, hblock⟩
    · cases value with
      | text t =>
        obtain rfl : t = [] := List.isEmpty_iff.1 hvoid
        exact .empty rfl clean_nil
      | _ => exact .empty (by rw [codeOf, if_pos hvoid]; exact fun t => Json.noConfusion) clean_nil
    · exact .empty rfl (clean_eq_nil_iff.2 hblock)

/-! ### The draft after a miss -/

theorem Draft.finish_of_misses {answer : Except Failure Json} (h : Misses answer)
    (minLength : Int) (d : Draft) : d.finish minLength answer = .ok (d.keep [missNote answer]) := by
  cases h with
  | failed h => simp only [finish, missNote, h, if_true]
  | empty hcode hclean =>
    simp only [finish, hcode, missNote]
    exact if_pos (List.isEmpty_iff.2 hclean)

/-! ### Without a reviser -/

namespace Request

theorem exists_improve_none (minLength : Int) (r : Request) :
    ∃ v, improve minLength none r = .ok v := by
  unfold improve
  cases r.triage minLength with
  | settled result => exact ⟨result, rfl⟩
  | unsettled draft => exact ⟨draft.keep [], rfl⟩

theorem improve_none_congr {r r' : Request} (h : r.code = r'.code) (minLength : Int) :
    improve minLength none r = improve minLength none r' := by
  obtain ⟨code, title, context⟩ := r
  obtain ⟨code', title', context'⟩ := r'
  obtain rfl : code = code' := h
  rfl

/-- The note on a miss, unless the code is valid as it is given or once it is cleaned. -/
def missNotes (minLength : Int) (r : Request) (answer : Except Failure Json) : List Note :=
  if (validate minLength (some r.bareCode)).isValid = true ∨
      (validate minLength (some r.cleanCode)).isValid = true then []
  else [missNote answer]

theorem improve_of_misses {minLength : Int} {r : Request} {ask : Text → Except Failure Json}
    (h : Misses (ask (r.openPrompt minLength))) :
    improve minLength (some ask) r = (improve minLength none r).map fun v =>
      { v with notes := v.notes ++ r.missNotes minLength (ask (r.openPrompt minLength)) } := by
  rcases r.valid_or_isOpen minLength with hbare | ⟨hbare, hclean⟩ | hopen
  · have hnotes : ∀ answer, r.missNotes minLength answer = [] := fun _ => if_pos (Or.inl hbare)
    simp only [improve, triage_of_bareCode hbare, hnotes, Except.map, List.append_nil]
  · have hnotes : ∀ answer, r.missNotes minLength answer = [] := fun _ => if_pos (Or.inr hclean)
    simp only [improve, triage_of_cleanCode hbare hclean, hnotes, Except.map, List.append_nil]
  · -- Only here the reviser is asked, and the draft stays as it was.
    have hnotes : ∀ answer, r.missNotes minLength answer = [missNote answer] :=
      fun _ => if_neg (by simp [hopen.1, hopen.2])
    simp only [improve, triage_of_isOpen hopen, promptFor_draft, Draft.finish_of_misses h, hnotes,
      Draft.keep, Except.map, List.append_nil]

end Request

/-! ### With a reviser that misses -/

namespace Improver

theorem result_of_no_reviser (settings : Settings) (s : Supply) (r : Request) :
    (Improver.handle settings ⟨false, none⟩ s r).1.result =
      improve settings.minLength none r := by
  rw [handle_result]
  rfl

/-- A reviser that misses leaves what an improver without one comes to, but for at most one note.
There is none exactly if the code is valid as it is given or once it is cleaned. -/
theorem improve_eq_result_of_misses (settings : Settings) {r : Request}
    {ask : Text → Except Failure Json} (h : Misses (ask (r.openPrompt settings.minLength))) :
    ∃ v rest,
      (∀ (s : Supply) (title context : Option Text),
        (Improver.handle settings ⟨false, none⟩ s
          ⟨r.code, title, context⟩).1.result = .ok v) ∧
      improve settings.minLength (some ask) r = .ok { v with notes := v.notes ++ rest } ∧
      rest.length ≤ 1 ∧
      (rest = [] ↔ (validate settings.minLength (some r.bareCode)).isValid = true ∨
        (validate settings.minLength (some r.cleanCode)).isValid = true) := by
  obtain ⟨v, hv⟩ := r.exists_improve_none settings.minLength
  have hmiss := Request.improve_of_misses h
  rw [hv] at hmiss
  refine ⟨v, _, fun s title context => ?_, hmiss, ?_, ?_⟩
  · rw [result_of_no_reviser, ← hv]
    exact Request.improve_none_congr rfl _
  · unfold Request.missNotes
    split <;> simp
  · unfold Request.missNotes
    split
    · rename_i hvalid
      exact iff_of_true rfl hvalid
    · rename_i hvalid
      exact iff_of_false (by simp) hvalid

/-- The reply opens a block and gives no more than its tag. -/
theorem improve_eq_result_of_misses_tag :
    let r : Request := ⟨some "graph TD\n    a[Start -- > b", some "Order", none⟩
    let ask : Text → Except Failure Json := fun _ => .ok (.text " ```mermaid \n")
    Misses (ask (r.openPrompt 15)) ∧
      ∃ v note, (Improver.handle Settings.standard ⟨false, none⟩ ⟨[], []⟩
          ⟨r.code, none, none⟩).1.result = .ok v ∧
        improve 15 (some ask) r = .ok { v with notes := v.notes ++ [note] } := by
  intro r ask
  have hopen : r.IsOpen Settings.standard.minLength := by decide +kernel
  have hmiss : Misses (ask (r.openPrompt 15)) :=
    misses_ok_iff.2 (Or.inr ⟨_, rfl, firstBlock_eq_nil_iff.2
      (Or.inr (Or.inr ⟨"mermaid", by decide, by decide⟩))⟩)
  obtain ⟨v, rest, hnone, hsome, hle, hrest⟩ :=
    @improve_eq_result_of_misses Settings.standard r ask hmiss
  have hvalid : rest ≠ [] := by
    rw [ne_eq, hrest]
    simp [hopen.1, hopen.2]
  obtain ⟨note, rfl⟩ := List.length_eq_one_iff.1
    (Nat.le_antisymm hle (List.length_pos_iff.2 hvalid))
  exact ⟨hmiss, v, note, hnone _ _ _, hsome⟩

end Improver

end FlowDiagram.Repair
