import FlowDiagram.Code.Verdict
import FlowDiagram.Proofs.Code.Fence
import Mathlib.Data.List.Basic
import Mathlib.Data.List.Nodup
import Mathlib.Data.Set.Function

/-!
# What each rule asks of the code

A rule finds nothing exactly when the code has the property that the rule stands for, and what a
rule finds is of its own kind. The issues are those of the seven rules, one after the other.
-/

namespace FlowDiagram.Code
open FlowDiagram.Text

/-! ### The list of issues -/

theorem issues_eq_append (minLength : Int) (code : Text) :
    issues minLength code =
      (typeRule code).toList ++ (lengthRule minLength code).toList ++
        (bracketRule code).toList ++ (markupRule code).toList ++ (arrowRule code).toList ++
        (duplicateRule code).toList ++ (structureRule code).toList := by
  simp [issues, rules, List.filterMap_eq_flatMap_toList]

/-! ### The rules one by one -/

theorem typeRule_eq_none_iff {code : Text} :
    typeRule code = none ↔ ∃ name ∈ diagramTypes, name <+: toLowerAscii code := by
  unfold typeRule
  split
  · rename_i h
    simpa using h
  · rename_i h
    simpa using h

theorem lengthRule_eq_none_iff {minLength : Int} {code : Text} :
    lengthRule minLength code = none ↔ minLength < code.length := by
  unfold lengthRule
  split
  · rename_i h
    exact iff_of_true rfl h
  · rename_i h
    exact iff_of_false (by simp) h

theorem bracketRule_eq_none_iff {code : Text} :
    bracketRule code = none ↔ ∀ pair ∈ bracketPairs, code.count pair.1 = code.count pair.2 := by
  have hfilter : (bracketPairs.map (bracketCount code)).filter
      (fun b => b.opened != b.closed) = [] ↔
        ∀ pair ∈ bracketPairs, code.count pair.1 = code.count pair.2 := by
    simp only [List.filter_eq_nil_iff, List.forall_mem_map, bracketCount, bne_iff_ne, ne_eq,
      not_not]
  unfold bracketRule
  rw [← hfilter]
  cases (bracketPairs.map (bracketCount code)).filter (fun b => b.opened != b.closed) with
  | nil => simp
  | cons b counts => simp

theorem markupRule_eq_none_iff {code : Text} :
    markupRule code = none ↔ ∀ u, u <:+ code → markup.read u = none := by
  rw [markupRule, Option.map_eq_none_iff, Scanner.search_eq_none_iff]

/-- Every tag opens with an angle bracket. -/
theorem markupRule_of_lt_notMem {code : Text} (h : CodePoint.ofChar '<' ∉ code) :
    markupRule code = none := by
  rw [markupRule_eq_none_iff]
  intro u hu
  cases hread : markup.read u with
  | none => rfl
  | some result =>
    obtain ⟨lexeme, rest⟩ := result
    have hlt : ∃ rest, u = ('<' : CodePoint) :: rest := by
      simp only [markup, Scanner.read_seq_eq_some_iff, Scanner.read_char_eq_some_iff] at hread
      obtain ⟨_, _, _, ⟨_, _, _, ⟨_, _, _, ⟨_, _, _, ⟨_, _, _, ⟨-, rfl⟩, -⟩, -⟩, -⟩, -⟩, -⟩ := hread
      exact ⟨_, rfl⟩
    obtain ⟨rest, rfl⟩ := hlt
    exact absurd (hu.subset (List.mem_cons_self ..)) h

/-- Every broken arrow holds the shorter one. -/
theorem arrowRule_eq_none_iff {code : Text} :
    arrowRule code = none ↔ ¬ Text.ofString "- >" <:+: code := by
  have hlong : Text.ofString "-- >" <:+: code → Text.ofString "- >" <:+: code := by
    intro h
    exact List.IsInfix.trans ⟨[CodePoint.ofChar '-'], [], rfl⟩ h
  have hfilter : (brokenArrows.filter fun arrow => occurs arrow code) = [] ↔
      ¬ Text.ofString "- >" <:+: code := by
    simp only [brokenArrows, List.filter_eq_nil_iff, List.mem_cons, List.not_mem_nil, or_false,
      forall_eq_or_imp, forall_eq, occurs_iff]
    exact ⟨And.right, fun h => ⟨mt hlong h, h⟩⟩
  unfold arrowRule
  rw [← hfilter]
  cases brokenArrows.filter fun arrow => occurs arrow code with
  | nil => simp
  | cons a arrows => simp

theorem duplicateRule_eq_none_iff {code : Text} :
    duplicateRule code = none ↔ repeated (definedIds code) = [] := by
  unfold duplicateRule
  cases repeated (definedIds code) with
  | nil => simp
  | cons id ids => simp

theorem structureRule_eq_none_iff {code : Text} :
    structureRule code = none ↔
      (∃ sign ∈ structuralSigns, sign <:+: code) ∨
        ∃ word ∈ structuralWords, word <:+: toLowerAscii code := by
  unfold structureRule
  split
  · rename_i h
    simpa [occurs_iff] using h
  · rename_i h
    simpa [occurs_iff] using h

/-! ### Valid code -/

theorem issues_eq_nil_iff {minLength : Int} {code : Text} :
    issues minLength code = [] ↔
      typeRule code = none ∧ lengthRule minLength code = none ∧ bracketRule code = none ∧
        markupRule code = none ∧ arrowRule code = none ∧ duplicateRule code = none ∧
        structureRule code = none := by
  simp only [issues_eq_append, List.append_eq_nil_iff, Option.toList_eq_nil_iff, and_assoc]

theorem validate_of_not_allBlank {t : Text} (h : allBlank t = false) (minLength : Int) :
    validate minLength (some t) = judge minLength (unfence t) := by
  simp only [validate, h, Bool.false_eq_true, if_false]

theorem validate_of_allBlank {t : Text} (h : allBlank t = true) (minLength : Int) :
    validate minLength (some t) = emptyVerdict := by
  simp only [validate, h, if_true]

theorem unfence_of_allBlank {t : Text} (h : allBlank t = true) : unfence t = [] := by
  have htrim : trim t = [] := trim_eq_nil_iff.2 (List.all_eq_true.1 h)
  rw [unfence, htrim]
  rfl

/-- A text with a character that is not blank has code to judge. -/
theorem validate_of_mem {t : Text} {c : CodePoint} (hc : c ∈ t) (hblank : isBlank c = false)
    (minLength : Int) : validate minLength (some t) = judge minLength (unfence t) := by
  refine validate_of_not_allBlank (Bool.eq_false_iff.2 fun hall => ?_) minLength
  rw [List.all_eq_true.1 hall c hc] at hblank
  exact absurd hblank (by decide)

theorem validate_of_mem_unfence {t : Text} {c : CodePoint} (hc : c ∈ unfence t)
    (hblank : isBlank c = false) (minLength : Int) :
    validate minLength (some t) = judge minLength (unfence t) :=
  validate_of_mem ((infix_unfence t).subset hc) hblank minLength

/-! ### Kinds -/

/-- The rules with the kind of what each of them finds. -/
def kindedRules (minLength : Int) : List (Violation × (Text → Option Issue)) :=
  [(.unrecognizedDiagramType, typeRule), (.tooShort, lengthRule minLength),
   (.unbalancedBrackets, bracketRule), (.prohibitedMarkup, markupRule),
   (.brokenArrowSyntax, arrowRule), (.duplicateNodeId, duplicateRule),
   (.noStructuralSyntax, structureRule)]

section
variable {minLength : Int} {kind : Violation} {rule : Text → Option Issue}

theorem kind_of_kindedRule (h : (kind, rule) ∈ kindedRules minLength) {code : Text} {issue : Issue}
    (hissue : rule code = some issue) : issue.kind = kind := by
  simp only [kindedRules, List.mem_cons, Prod.mk.injEq, List.not_mem_nil, or_false] at h
  rcases h with ⟨rfl, rfl⟩ | ⟨rfl, rfl⟩ | ⟨rfl, rfl⟩ | ⟨rfl, rfl⟩ | ⟨rfl, rfl⟩ | ⟨rfl, rfl⟩ |
    ⟨rfl, rfl⟩ <;>
  grind [typeRule, lengthRule, bracketRule, markupRule, arrowRule, duplicateRule, structureRule,
    Option.map_eq_some_iff, Issue.kind]

/-- The issue of a kind is what the rule of that kind finds. -/
theorem mem_issues_and_kind_iff (h : (kind, rule) ∈ kindedRules minLength) {code : Text}
    {issue : Issue} :
    (issue ∈ issues minLength code ∧ issue.kind = kind) ↔ rule code = some issue := by
  have hrules : (kindedRules minLength).map Prod.snd = rules minLength := rfl
  have hnodup : ((kindedRules minLength).map Prod.fst).Nodup := by
    simp only [kindedRules, List.map_cons, List.map_nil]
    decide
  rw [issues, ← hrules, List.mem_filterMap]
  constructor
  · intro hmem
    obtain ⟨⟨other, hother, hfound⟩, hkind⟩ := hmem
    obtain ⟨⟨k, found⟩, hfoundMem, rfl⟩ := List.mem_map.1 hother
    obtain rfl : k = kind := (kind_of_kindedRule hfoundMem hfound).symm.trans hkind
    obtain rfl : found = rule :=
      (Prod.mk.inj (List.inj_on_of_nodup_map hnodup hfoundMem h rfl)).2
    exact hfound
  · intro hissue
    exact ⟨⟨rule, List.mem_map.2 ⟨_, h, rfl⟩, hissue⟩, kind_of_kindedRule h hissue⟩

/-- What a verdict reports under a kind is what the rule of that kind finds in the code. -/
theorem eq_some_of_mem_validate (h : (kind, rule) ∈ kindedRules minLength) {t : Text} {issue : Issue}
    (hissue : issue ∈ (validate minLength (some t)).issues) (hkind : issue.kind = kind) :
    rule (unfence t) = some issue := by
  cases hall : allBlank t with
  | true =>
    rw [validate_of_allBlank hall] at hissue
    obtain rfl := List.mem_singleton.1 hissue
    rw [← hkind] at h
    exact absurd h (by simp [kindedRules, Issue.kind])
  | false =>
    rw [validate_of_not_allBlank hall] at hissue
    have hmem : issue ∈ issues minLength (unfence t) := by
      simpa only [judge] using hissue
    exact (mem_issues_and_kind_iff h).1 ⟨hmem, hkind⟩

/-- A kind is violated exactly when its rule finds something. -/
theorem has_judge_iff (h : (kind, rule) ∈ kindedRules minLength) {code : Text} :
    (judge minLength code).has kind = true ↔ rule code ≠ none := by
  rw [Verdict.has, List.contains_iff_mem, Verdict.violations, judge, List.mem_map,
    Option.ne_none_iff_exists']
  exact exists_congr fun issue => mem_issues_and_kind_iff h

/-- A rule that finds nothing in empty code decides on its kind for every text. -/
theorem has_validate_iff (h : (kind, rule) ∈ kindedRules minLength) (hnil : rule [] = none)
    {t : Text} : (validate minLength (some t)).has kind = true ↔ rule (unfence t) ≠ none := by
  cases hall : allBlank t with
  | true =>
    have hkind : kind ≠ .emptyInput := by
      intro heq
      rw [heq] at h
      exact absurd h (by simp [kindedRules])
    rw [validate_of_allBlank hall, unfence_of_allBlank hall, hnil]
    simpa [Verdict.has, Verdict.violations, emptyVerdict, Issue.kind] using hkind
  | false => rw [validate_of_not_allBlank hall, has_judge_iff h]

end

/-! ### Repeated ids -/

theorem repeated_eq_nil_iff {ts : List Text} : repeated ts = [] ↔ ts.Nodup := by
  rw [List.nodup_iff_count, List.eq_nil_iff_forall_not_mem]
  simp only [mem_repeated, Nat.not_lt]

theorem firstOccurrences_map {f : Text → Text} {ts : List Text}
    (hf : Set.InjOn f {t | t ∈ ts}) :
    firstOccurrences (ts.map f) = (firstOccurrences ts).map f := by
  induction ts with
  | nil => rfl
  | cons t ts ih =>
    have htail : Set.InjOn f {t | t ∈ ts} :=
      hf.mono fun u (hu : u ∈ ts) => List.mem_cons_of_mem t hu
    have hfilter : ((firstOccurrences ts).map f).filter (· != f t) =
        ((firstOccurrences ts).filter (· != t)).map f := by
      rw [List.filter_map]
      refine congrArg (List.map f) (List.filter_congr ?_)
      intro u hu
      have hmem : u ∈ t :: ts := List.mem_cons_of_mem t (mem_firstOccurrences.1 hu)
      have hiff : f u = f t ↔ u = t := hf.eq_iff hmem (List.mem_cons_self ..)
      rw [Bool.eq_iff_iff, Function.comp_apply, bne_iff_ne, bne_iff_ne, ne_eq, hiff]
    rw [List.map_cons, firstOccurrences, ih htail, hfilter]
    rfl

theorem count_map_of_injOn {f : Text → Text} {ts : List Text} {t : Text}
    (hf : Set.InjOn f {u | u ∈ ts}) (ht : t ∈ ts) : (ts.map f).count (f t) = ts.count t := by
  rw [List.count, List.countP_map, List.count]
  refine List.countP_congr ?_
  intro u hu
  have hiff : f u = f t ↔ u = t := hf.eq_iff hu ht
  simp [hiff]

theorem repeated_map {f : Text → Text} {ts : List Text} (hf : Set.InjOn f {t | t ∈ ts}) :
    repeated (ts.map f) = (repeated ts).map f := by
  unfold repeated
  rw [firstOccurrences_map hf, List.filter_map]
  refine congrArg (List.map f) (List.filter_congr ?_)
  intro t ht
  simp [count_map_of_injOn hf (mem_firstOccurrences.1 ht)]

end FlowDiagram.Code
