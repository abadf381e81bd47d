import FlowDiagram.Proofs.Code.Duplicate
import FlowDiagram.Proofs.Graph.Names

/-!
# Every text has a sound verdict

A verdict names the kinds of its issues in the order of the rules, each kind at most once. A text
that is missing or blank is called empty, and no other text is. Where code is refused, the refusal
tells the issues of the verdict, one on each line.
-/

namespace FlowDiagram.Code
open FlowDiagram.Text

/-! ### The order of the rules -/

/-- The kinds of the seven rules in the order in which the rules look at the code. -/
def ruleOrder : List Violation :=
  [.unrecognizedDiagramType, .tooShort, .unbalancedBrackets, .prohibitedMarkup, .brokenArrowSyntax,
   .duplicateNodeId, .noStructuralSyntax]

/-- The rule for the first kind comes before the rule for the other. -/
def Precedes (kind other : Violation) : Prop := ruleOrder.idxOf kind < ruleOrder.idxOf other

instance (kind other : Violation) : Decidable (Precedes kind other) := Nat.decLt _ _

theorem pairwise_ruleOrder : ruleOrder.Pairwise Precedes := by decide

theorem issues_eq_filterMap (minLength : Int) (code : Text) :
    issues minLength code = (kindedRules minLength).filterMap fun p => p.2 code := by
  have hrules : (kindedRules minLength).map Prod.snd = rules minLength := rfl
  rw [issues, ← hrules, List.filterMap_map]
  rfl

theorem issues_judge (minLength : Int) (code : Text) :
    (judge minLength code).issues = issues minLength code := rfl

theorem violations_judge (minLength : Int) (code : Text) :
    (judge minLength code).violations = (issues minLength code).map Issue.kind := rfl

/-- Each rule reports its kind or nothing, when its turn comes. -/
theorem kinds_sublist (minLength : Int) (code : Text) :
    ((issues minLength code).map Issue.kind).Sublist ruleOrder := by
  have hrun : ∀ ks : List (Violation × (Text → Option Issue)),
      (∀ p ∈ ks, p ∈ kindedRules minLength) →
        ((ks.filterMap fun p => p.2 code).map Issue.kind).Sublist (ks.map Prod.fst) := by
    intro ks
    induction ks with
    | nil => exact fun _ => List.Sublist.slnil
    | cons p ks ih =>
      intro hks
      have htail := ih fun q hq => hks q (List.mem_cons_of_mem _ hq)
      rw [List.filterMap_cons]
      cases hfound : p.2 code with
      | none => exact htail.cons _
      | some issue =>
        have hkind : issue.kind = p.1 := kind_of_kindedRule (hks p (by simp)) hfound
        rw [List.map_cons, List.map_cons, hkind]
        exact htail.cons_cons _
  rw [issues_eq_filterMap]
  exact hrun (kindedRules minLength) fun _ hp => hp

/-! ### Missing texts -/

/-- There is no text, or there are only blanks in it. -/
def IsMissing (text : Option Text) : Prop := allBlank (text.getD []) = true

theorem validate_of_isMissing {text : Option Text} (h : IsMissing text) (minLength : Int) :
    validate minLength text = emptyVerdict := by
  cases text with
  | none => rfl
  | some t => exact validate_of_allBlank h minLength

theorem validate_of_not_isMissing {text : Option Text} (h : ¬ IsMissing text) (minLength : Int) :
    validate minLength text = judge minLength (unfence (text.getD [])) := by
  cases text with
  | none => exact absurd rfl h
  | some t => exact validate_of_not_allBlank (Bool.eq_false_iff.2 h) minLength

theorem nodup_violations (minLength : Int) (text : Option Text) :
    (validate minLength text).violations.Nodup := by
  by_cases h : IsMissing text
  · rw [validate_of_isMissing h]
    decide
  · have hnodup : ruleOrder.Nodup := by decide
    rw [validate_of_not_isMissing h, violations_judge]
    exact hnodup.sublist (kinds_sublist minLength _)

/-! ### Sound verdicts -/

structure SoundVerdict (text : Option Text) (v : Verdict) : Prop where
  isValid_iff : v.isValid = true ↔ v.violations = []
  violations_eq : v.violations = v.issues.map Issue.kind
  empty_iff : v.violations = [.emptyInput] ↔ IsMissing text
  ordered : ¬ IsMissing text →
    v.violations.Pairwise Precedes ∧ ∀ kind ∈ v.violations, kind ∈ ruleOrder
  /-- Where there is code there is a first line, and this is the line that is shown. -/
  firstLine : unfence (text.getD []) ≠ [] →
    ∃ line, (lines (unfence (text.getD [])))[0]? = some line ∧
      ∀ shown, .unrecognizedDiagramType shown ∈ v.issues → shown = line
  /-- Nothing is left behind the fence of a text that is not blank. -/
  fenceOnly : ¬ IsMissing text → unfence (text.getD []) = [] →
    .unrecognizedDiagramType ∈ v.violations ∧ .noStructuralSyntax ∈ v.violations

theorem getElem?_zero_lines {t : Text} (h : t ≠ []) : (lines t)[0]? = some (firstLine t) := by
  obtain ⟨line, rest, hlines⟩ := List.exists_cons_of_ne_nil (lines_ne_nil h)
  rw [firstLine, hlines]
  rfl

theorem eq_firstLine_of_mem_issues {minLength : Int} {code shown : Text}
    (h : .unrecognizedDiagramType shown ∈ issues minLength code) : shown = firstLine code := by
  have hkind : (.unrecognizedDiagramType, typeRule) ∈ kindedRules minLength := by
    simp [kindedRules]
  have hfound := (mem_issues_and_kind_iff hkind).1 ⟨h, rfl⟩
  unfold typeRule at hfound
  split at hfound
  · exact absurd hfound (by simp)
  · simpa using hfound.symm

theorem soundVerdict_empty {text : Option Text} (h : IsMissing text) :
    SoundVerdict text emptyVerdict where
  isValid_iff := isValid_iff_violations_eq_nil _
  violations_eq := rfl
  empty_iff := iff_of_true rfl h
  ordered hnot := absurd h hnot
  firstLine hne := absurd (unfence_of_allBlank h) hne
  fenceOnly hnot := absurd h hnot

theorem soundVerdict_judge {text : Option Text} (h : ¬ IsMissing text) (minLength : Int) :
    SoundVerdict text (judge minLength (unfence (text.getD []))) where
  isValid_iff := isValid_iff_violations_eq_nil _
  violations_eq := rfl
  empty_iff := by
    refine iff_of_false (fun hempty => ?_) h
    rw [violations_judge] at hempty
    have hsub := kinds_sublist minLength (unfence (text.getD []))
    have hmem : Violation.emptyInput ∈ ruleOrder := hsub.subset (by simp [hempty])
    exact absurd hmem (by decide)
  ordered _ := by
    have hsub := kinds_sublist minLength (unfence (text.getD []))
    rw [violations_judge]
    exact ⟨pairwise_ruleOrder.sublist hsub, fun _ hkind => hsub.subset hkind⟩
  firstLine hne := by
    refine ⟨_, getElem?_zero_lines hne, fun shown hshown => ?_⟩
    rw [issues_judge] at hshown
    exact eq_firstLine_of_mem_issues hshown
  fenceOnly _ hnil := by
    have hmem : ∀ {kind rule}, (kind, rule) ∈ kindedRules minLength → rule [] ≠ none →
        kind ∈ (judge minLength []).violations :=
      fun hkind hfound => List.contains_iff_mem.1 ((has_judge_iff hkind).2 hfound)
    have htype : (.unrecognizedDiagramType, typeRule) ∈ kindedRules minLength := by
      simp [kindedRules]
    have hstructure : (.noStructuralSyntax, structureRule) ∈ kindedRules minLength := by
      simp [kindedRules]
    rw [hnil]
    exact ⟨hmem htype (by decide), hmem hstructure (by decide)⟩

theorem soundVerdict_validate (minLength : Int) (text : Option Text) :
    SoundVerdict text (validate minLength text) := by
  by_cases h : IsMissing text
  · rw [validate_of_isMissing h]
    exact soundVerdict_empty h
  · rw [validate_of_not_isMissing h]
    exact soundVerdict_judge h minLength

/-! ### What a refusal says -/

/-- The line on an issue: its code in brackets, and its message. -/
def Issue.entry (i : Issue) : Text := "[" ++ i.kind.code ++ "] " ++ i.message

def Verdict.refusalHeading (v : Verdict) : Text :=
  "Diagram validation failed with " ++ ofNat v.violations.length ++ " violations:"

theorem Verdict.refusal_eq (v : Verdict) :
    v.refusal =
      v.refusalHeading ++ ('\n' : CodePoint) :: joinWith "\n" (v.issues.map Issue.entry) := by
  have hfeed : Text.ofString " violations:\n" =
      Text.ofString " violations:" ++ [CodePoint.ofChar '\n'] := by decide
  have hentries : (fun i : Issue => Text.ofString "[" ++ i.kind.code ++ "] " ++ i.message) =
      Issue.entry := rfl
  rw [refusal, refusalHeading, hentries, hfeed]
  simp only [List.append_assoc, List.singleton_append]

theorem oneLine_of_isWord {t : Text} (h : ∀ c ∈ t, isWord c = true) : OneLine t :=
  fun c hc => isLineEnd_of_isBlank (isBlank_of_isWord (h c hc))

theorem oneLine_ofNat (n : Nat) : OneLine (ofNat n) :=
  oneLine_of_isWord fun _ => isWord_of_mem_ofNat

theorem oneLine_of_mem_definedIds {code id : Text} (h : id ∈ definedIds code) : OneLine id := by
  obtain ⟨line, -, hid⟩ := List.mem_filterMap.1 h
  obtain ⟨blanks, opening, rest, -, -, -, hword, -⟩ := definedId?_eq_some_iff.1 hid
  exact oneLine_of_isWord hword

theorem eq_repeated_of_mem_issues {minLength : Int} {code : Text} {ids : List Text}
    (h : .duplicateNodeId ids ∈ issues minLength code) : ids = repeated (definedIds code) := by
  have hkind : (.duplicateNodeId, duplicateRule) ∈ kindedRules minLength := by
    simp [kindedRules]
  have hfound := (mem_issues_and_kind_iff hkind).1 ⟨h, rfl⟩
  unfold duplicateRule at hfound
  split at hfound
  · exact absurd hfound (by simp)
  · simpa using hfound.symm

/-- Of the messages only the one on ids quotes the code, and ids are words. -/
theorem oneLine_message {minLength : Int} {code : Text} {issue : Issue}
    (h : issue ∈ issues minLength code) : OneLine issue.message := by
  cases issue with
  | tooShort n =>
    simp only [Issue.message]
    exact oneLine_append (oneLine_append (by decide) (oneLine_ofNat n)) (by decide)
  | duplicateNodeId ids =>
    simp only [Issue.message]
    refine oneLine_append (by decide) (oneLine_joinWith (by decide) fun id hid => ?_)
    rw [eq_repeated_of_mem_issues h] at hid
    exact oneLine_of_mem_definedIds (mem_firstOccurrences.1 (List.mem_filter.1 hid).1)
  | _ =>
    simp only [Issue.message]
    decide +kernel

theorem oneLine_entry {minLength : Int} {text : Option Text} {issue : Issue}
    (h : issue ∈ (validate minLength text).issues) : OneLine issue.entry := by
  have hcode : ∀ kind : Violation, OneLine kind.code := by
    intro kind
    cases kind <;> decide
  have hmessage : OneLine issue.message := by
    by_cases hmissing : IsMissing text
    · rw [validate_of_isMissing hmissing] at h
      obtain rfl := List.mem_singleton.1 h
      decide
    · rw [validate_of_not_isMissing hmissing, issues_judge] at h
      exact oneLine_message h
  unfold Issue.entry
  exact oneLine_append (oneLine_append (oneLine_append (by decide) (hcode _)) (by decide)) hmessage

theorem lines_refusal (minLength : Int) (text : Option Text) :
    lines (validate minLength text).refusal =
      (validate minLength text).refusalHeading ::
        (validate minLength text).issues.map Issue.entry := by
  have hheading : OneLine (validate minLength text).refusalHeading :=
    oneLine_append (oneLine_append (by decide) (oneLine_ofNat _)) (by decide)
  have hentries : ∀ l ∈ (validate minLength text).issues.map Issue.entry, OneLine l := by
    intro l hl
    obtain ⟨issue, hissue, rfl⟩ := List.mem_map.1 hl
    exact oneLine_entry hissue
  have hlast : ((validate minLength text).issues.map Issue.entry).getLast? ≠ some [] := by
    intro hnil
    obtain ⟨issue, -, hentry⟩ := List.mem_map.1 (List.mem_of_getLast? hnil)
    exact absurd hentry (by simp [Issue.entry, Text.ofString])
  rw [Verdict.refusal_eq, lines_append_lineFeed hheading, lines_joinWith hentries hlast]

/-- Every text has a verdict that fits together, and a text is refused exactly when its verdict is
not valid, with the issues of this verdict. -/
theorem verdict_sound (minLength : Int) (text : Option Text) :
    let verdict := validate minLength text
    SoundVerdict text verdict ∧
      (requireValid minLength text = .ok verdict ↔ verdict.isValid = true) ∧
      (∀ refused, requireValid minLength text = .error refused ↔
        refused = verdict ∧ verdict.isValid = false) ∧
      lines verdict.refusal = verdict.refusalHeading :: verdict.issues.map Issue.entry := by
  intro verdict
  refine ⟨soundVerdict_validate minLength text, ?_, fun refused => ?_,
    lines_refusal minLength text⟩
  · show (if verdict.isValid then Except.ok verdict else Except.error verdict) = _ ↔ _
    cases hvalid : verdict.isValid with
    | true => simp
    | false => simp
  · show (if verdict.isValid then Except.ok verdict else Except.error verdict) = _ ↔ _
    cases hvalid : verdict.isValid with
    | true => simp
    | false => simp [eq_comm]

/-- Nothing but a fence is no code, and it is still not called empty. -/
example : (validate 15 (some "\n```mermaid\n```")).violations =
    [.unrecognizedDiagramType, .tooShort, .noStructuralSyntax] := by
  decide +kernel

end FlowDiagram.Code
