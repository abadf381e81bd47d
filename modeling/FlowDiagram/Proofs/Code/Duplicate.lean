import FlowDiagram.Proofs.Code.Definition
import FlowDiagram.Proofs.Code.Rule

/-!
# Ids that are defined twice

A line defines an id when the id, a word, stands behind the blanks of the line with an opening
bracket right behind it. The verdict counts the lines that define an id, and it lists the ids that
at least two lines define, in the order of their first definitions.
-/

namespace FlowDiagram.Code
open FlowDiagram.Text

/-! ### Lines that define an id -/

/-- The line starts with blanks, the id and an opening bracket. Neither a blank nor a bracket is a
word character, so that the blanks are all there are and the id is a whole word. -/
def Defines (line id : Text) : Prop :=
  ∃ blanks opening rest, line = blanks ++ id ++ opening :: rest ∧
    (∀ c ∈ blanks, isBlank c = true) ∧ id ≠ [] ∧ (∀ c ∈ id, isWord c = true) ∧
    isShapeOpening opening = true

theorem isWord_of_isShapeOpening {c : CodePoint} (h : isShapeOpening c = true) :
    isWord c = false := by
  simp only [isShapeOpening, Bool.or_eq_true, beq_iff_eq] at h
  rcases h with (rfl | rfl) | rfl <;> decide

theorem defines_of_definedId? {line id : Text} (h : definedId? line = some id) :
    Defines line id := by
  have hline : line = line.takeWhile isBlank ++ trimLeft line :=
    List.takeWhile_append_dropWhile.symm
  have hword : trimLeft line =
      (trimLeft line).takeWhile isWord ++ (trimLeft line).dropWhile isWord :=
    List.takeWhile_append_dropWhile.symm
  unfold definedId? at h
  split at h
  · rename_i c w opening rest htake hdrop
    split at h
    · rename_i hopening
      obtain rfl := Option.some.inj h
      refine ⟨line.takeWhile isBlank, opening, rest, ?_, fun d hd => List.mem_takeWhile_imp hd,
        List.cons_ne_nil _ _, ?_, hopening⟩
      · rw [List.append_assoc, ← htake, ← hdrop, ← hword]
        exact hline
      · rw [← htake]
        exact fun d hd => List.mem_takeWhile_imp hd
    · exact absurd h (by simp)
  · exact absurd h (by simp)

theorem definedId?_eq_some_iff {line id : Text} : definedId? line = some id ↔ Defines line id := by
  refine ⟨defines_of_definedId?, ?_⟩
  rintro ⟨blanks, opening, rest, rfl, hblanks, hne, hword, hopening⟩
  rw [definedId?_append hblanks hne hword (isWord_of_isShapeOpening hopening), if_pos hopening]

instance (line id : Text) : Decidable (Defines line id) :=
  decidable_of_iff _ definedId?_eq_some_iff

instance (line : Text) : Decidable (∃ id, Defines line id) :=
  decidable_of_iff ((definedId? line).isSome = true) (by
    simp only [Option.isSome_iff_exists, definedId?_eq_some_iff])

/-! ### Counting definitions -/

theorem length_definedIds (code : Text) :
    (definedIds code).length = (lines code).countP fun line => decide (∃ id, Defines line id) := by
  rw [definedIds, List.length_filterMap_eq_countP]
  refine List.countP_congr fun line _ => ?_
  simp only [decide_eq_true_eq, Option.isSome_iff_exists, definedId?_eq_some_iff]

theorem count_definedIds (code id : Text) :
    (definedIds code).count id = (lines code).countP fun line => decide (Defines line id) := by
  rw [definedIds, List.count, List.countP_filterMap]
  refine List.countP_congr fun line _ => ?_
  rw [decide_eq_true_eq, ← definedId?_eq_some_iff]
  cases definedId? line with
  | none => simp
  | some other => simp

/-! ### The order of first definitions -/

/-- The place of the first line that defines the id. -/
def firstDefinition (ls : List Text) (id : Text) : Nat :=
  ls.findIdx fun line => decide (Defines line id)

theorem firstDefinition_cons_of_defines {line id : Text} (h : Defines line id) (ls : List Text) :
    firstDefinition (line :: ls) id = 0 := by
  simp [firstDefinition, List.findIdx_cons, h]

theorem firstDefinition_cons_of_not {line id : Text} (h : ¬ Defines line id) (ls : List Text) :
    firstDefinition (line :: ls) id = firstDefinition ls id + 1 := by
  simp [firstDefinition, List.findIdx_cons, h]

theorem pairwise_firstOccurrences (ls : List Text) :
    (firstOccurrences (ls.filterMap definedId?)).Pairwise
      fun id other => firstDefinition ls id < firstDefinition ls other := by
  induction ls with
  | nil => exact List.Pairwise.nil
  | cons line ls ih =>
    -- Behind a line that does not define them all places move on by one.
    have hmove : ∀ {ids : List Text}, (∀ id ∈ ids, ¬ Defines line id) →
        (ids.Pairwise fun id other => firstDefinition ls id < firstDefinition ls other) →
        ids.Pairwise fun id other =>
          firstDefinition (line :: ls) id < firstDefinition (line :: ls) other := by
      intro ids hnot hpairs
      refine hpairs.imp_of_mem fun {id other} hid hother hlt => ?_
      rw [firstDefinition_cons_of_not (hnot id hid),
        firstDefinition_cons_of_not (hnot other hother)]
      omega
    cases hline : definedId? line with
    | none =>
      rw [List.filterMap_cons_none hline]
      refine hmove (fun id _ hdef => ?_) ih
      rw [definedId?_eq_some_iff.2 hdef] at hline
      exact absurd hline (by simp)
    | some first =>
      rw [List.filterMap_cons_some hline, firstOccurrences]
      have hothers : ∀ id ∈ (firstOccurrences (ls.filterMap definedId?)).filter (· != first),
          ¬ Defines line id := by
        intro id hid hdef
        rw [definedId?_eq_some_iff.2 hdef] at hline
        exact absurd (Option.some.inj hline) (by simpa using (List.mem_filter.1 hid).2)
      refine List.pairwise_cons.2 ⟨fun id hid => ?_, hmove hothers (ih.filter _)⟩
      rw [firstDefinition_cons_of_defines (definedId?_eq_some_iff.1 hline),
        firstDefinition_cons_of_not (hothers id hid)]
      exact Nat.succ_pos _

/-! ### The verdict -/

theorem duplicateIds_validate (minLength : Int) (t : Text) :
    (validate minLength (some t)).duplicateIds = repeated (definedIds (unfence t)) := by
  cases hall : allBlank t with
  | true => rw [validate_of_allBlank hall, unfence_of_allBlank hall]; rfl
  | false => rw [validate_of_not_allBlank hall]; rfl

theorem nodeDefinitions_validate (minLength : Int) (t : Text) :
    (validate minLength (some t)).stats.nodeDefinitions = (definedIds (unfence t)).length := by
  cases hall : allBlank t with
  | true => rw [validate_of_allBlank hall, unfence_of_allBlank hall]; rfl
  | false => rw [validate_of_not_allBlank hall]; rfl

/-- The verdict counts the lines of the code that define an id. It lists those ids that at least two
lines define, each once and in the order of their first definitions, and the kind for duplicates is
reported exactly when there are any. -/
theorem duplicates_reported (minLength : Int) (t : Text) :
    let verdict := validate minLength (some t)
    let ls := lines (unfence t)
    (∀ ms, IsCut (unfence t) ms ↔ ms = ls) ∧
      verdict.stats.nodeDefinitions = ls.countP (fun line => decide (∃ id, Defines line id)) ∧
      verdict.duplicateIds.Nodup ∧
      (∀ id, id ∈ verdict.duplicateIds ↔
        2 ≤ ls.countP fun line => decide (Defines line id)) ∧
      (verdict.duplicateIds.Pairwise fun id other =>
        firstDefinition ls id < firstDefinition ls other) ∧
      (verdict.has .duplicateNodeId = true ↔ verdict.duplicateIds ≠ []) := by
  intro verdict ls
  have hids : verdict.duplicateIds = repeated (definedIds (unfence t)) :=
    duplicateIds_validate minLength t
  have hkind : (.duplicateNodeId, duplicateRule) ∈ kindedRules minLength := by simp [kindedRules]
  refine ⟨fun ms => isCut_iff, ?_, ?_, fun id => ?_, ?_, ?_⟩
  · exact (nodeDefinitions_validate minLength t).trans (length_definedIds (unfence t))
  · rw [hids]
    exact (nodup_firstOccurrences _).filter _
  · rw [hids, mem_repeated, count_definedIds]
    exact Nat.lt_iff_add_one_le
  · rw [hids]
    exact (pairwise_firstOccurrences ls).filter _
  · rw [has_validate_iff hkind rfl, hids, ne_eq, duplicateRule_eq_none_iff]

/-- The id of the last line stands there alone, and the first line that defines `b` comes after the
first that defines `a`. -/
example : repeated (definedIds "graph TD\r\n a[A]\n b{B}\u2028b(B) --> a\n\ta[A]\na") =
    [Text.ofString "a", "b"] := by
  decide +kernel

end FlowDiagram.Code
