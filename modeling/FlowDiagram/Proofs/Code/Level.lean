import FlowDiagram.Proofs.Code.Definition
import FlowDiagram.Proofs.Code.Rule

/-!
# Blanks of one kind

A blank inside a line is written as a space here, whatever blank it is. Neither trimming nor joining
nor a rule of the verdict tells a text from the one with its blanks levelled, so a fact on code with
spaces only carries over to code with tabs and other blanks.
-/

namespace FlowDiagram.Text

/-- A space for every blank that does not end a line. -/
def levelBlank (c : CodePoint) : CodePoint := if isBlank c && !isLineEnd c then ' ' else c

def level (t : Text) : Text := t.map levelBlank

@[simp] theorem level_nil : level [] = [] := rfl

@[simp] theorem level_cons (c : CodePoint) (t : Text) :
    level (c :: t) = levelBlank c :: level t := rfl

@[simp] theorem level_append (s t : Text) : level (s ++ t) = level s ++ level t := List.map_append

@[simp] theorem length_level (t : Text) : (level t).length = t.length := List.length_map _

/-! ### Classes of characters -/

theorem levelBlank_of_not_blank {c : CodePoint} (h : isBlank c = false) : levelBlank c = c := by
  simp [levelBlank, h]

theorem levelBlank_cases (c : CodePoint) :
    levelBlank c = c ∨ (levelBlank c = ' ' ∧ isBlank c = true ∧ isLineEnd c = false) := by
  unfold levelBlank
  split
  · rename_i h
    simp only [Bool.and_eq_true, Bool.not_eq_true'] at h
    exact Or.inr ⟨rfl, h⟩
  · exact Or.inl rfl

@[simp] theorem isBlank_levelBlank (c : CodePoint) : isBlank (levelBlank c) = isBlank c := by
  rcases levelBlank_cases c with h | ⟨h, hblank, -⟩
  · rw [h]
  · rw [h, hblank]
    decide

@[simp] theorem isLineEnd_levelBlank (c : CodePoint) :
    isLineEnd (levelBlank c) = isLineEnd c := by
  rcases levelBlank_cases c with h | ⟨h, -, hline⟩
  · rw [h]
  · rw [h, hline]
    decide

@[simp] theorem isWord_levelBlank (c : CodePoint) : isWord (levelBlank c) = isWord c := by
  rcases levelBlank_cases c with h | ⟨h, hblank, -⟩
  · rw [h]
  · rw [h, isWord_of_isBlank hblank]
    decide

/-- Levelling neither makes nor takes away a character that is not blank. -/
theorem levelBlank_eq_iff {c d : CodePoint} (hd : isBlank d = false) :
    levelBlank c = d ↔ c = d := by
  constructor
  · intro h
    rcases levelBlank_cases c with hc | ⟨hc, -, -⟩
    · exact hc.symm.trans h
    · rw [← h, hc] at hd
      exact absurd hd (by decide)
  · intro h
    rw [h, levelBlank_of_not_blank hd]

theorem mem_level_iff {d : CodePoint} (hd : isBlank d = false) {t : Text} :
    d ∈ level t ↔ d ∈ t := by
  simp [level, levelBlank_eq_iff hd]

theorem level_eq_self {t : Text} (h : ∀ c ∈ t, isBlank c = true → c = ' ') : level t = t := by
  have hall : ∀ c ∈ t, levelBlank c = c := by
    intro c hc
    rcases levelBlank_cases c with hsame | ⟨hspace, hblank, -⟩
    · exact hsame
    · exact hspace.trans (h c hc hblank).symm
  rw [level, List.map_congr_left hall, List.map_id']

/-! ### Trimming and joining -/

theorem trimRight_level (t : Text) : trimRight (level t) = level (trimRight t) := by
  have hclass : isBlank ∘ levelBlank = isBlank := funext isBlank_levelBlank
  simp only [trimRight, dropWhileRight, level, ← List.map_reverse, List.dropWhile_map, hclass]

theorem trimmed_level_iff {t : Text} : Trimmed (level t) ↔ Trimmed t := by
  have hhead : (∀ c ∈ (level t).head?, isBlank c = false) ↔ ∀ c ∈ t.head?, isBlank c = false := by
    simp [level]
  have hlast : (∀ c ∈ (level t).getLast?, isBlank c = false) ↔
      ∀ c ∈ t.getLast?, isBlank c = false := by
    simp [level]
  exact ⟨fun h => ⟨hhead.1 h.head, hlast.1 h.last⟩, fun h => ⟨hhead.2 h.head, hlast.2 h.last⟩⟩

theorem joinWith_level (ls : List Text) :
    level (joinWith "\n" ls) = joinWith "\n" (ls.map level) := by
  induction ls with
  | nil => rfl
  | cons l ls ih =>
    cases ls with
    | nil => rfl
    | cons m ls =>
      have hfeed : level (Text.ofString "\n") = "\n" := by decide
      have hne : (m :: ls).map level ≠ [] := List.cons_ne_nil _ _
      rw [joinWith_cons _ _ (List.cons_ne_nil _ _), level_append, level_append, ih, hfeed]
      exact (joinWith_cons _ _ hne).symm

end FlowDiagram.Text

namespace FlowDiagram.Code
open FlowDiagram.Text

/-! ### Ids -/

@[simp] theorem isShapeOpening_levelBlank (c : CodePoint) :
    isShapeOpening (levelBlank c) = isShapeOpening c := by
  have hopening : ∀ d ∈ Text.ofString "[(\x7b", (levelBlank c == d) = (c == d) := by
    intro d hd
    have hblank : ∀ e ∈ Text.ofString "[(\x7b", isBlank e = false := by decide
    rw [Bool.eq_iff_iff, beq_iff_eq, beq_iff_eq, levelBlank_eq_iff (hblank d hd)]
  rw [isShapeOpening, isShapeOpening, hopening _ (by decide), hopening _ (by decide),
    hopening _ (by decide)]

theorem Position.step_levelBlank (p : Position) (c : CodePoint) :
    p.step (levelBlank c) = p.step c := by
  cases hword : isWord c with
  | true => rw [levelBlank_of_not_blank (isBlank_of_isWord hword)]
  | false => simp [Position.step, hword]

theorem idsFrom_level (p : Position) (t : Text) : idsFrom p (level t) = idsFrom p t := by
  induction t generalizing p with
  | nil => rfl
  | cons c t ih => rw [level_cons, idsFrom, idsFrom, Position.step_levelBlank, ih]

theorem definedIds_level (t : Text) : definedIds (level t) = definedIds t := by
  rw [definedIds_eq_idsFrom, definedIds_eq_idsFrom, idsFrom_level]

/-! ### Rules -/

theorem duplicateRule_level (t : Text) : duplicateRule (level t) = duplicateRule t := by
  rw [duplicateRule, duplicateRule, definedIds_level]

theorem count_level {b : CodePoint} (hb : isBlank b = false) (t : Text) :
    (level t).count b = t.count b := by
  rw [level, List.count_eq_countP, List.countP_map, List.count_eq_countP]
  refine List.countP_congr fun c _ => ?_
  simpa using levelBlank_eq_iff hb

theorem bracketRule_of_level {t : Text} (h : bracketRule (level t) = none) :
    bracketRule t = none := by
  have hblank : ∀ p ∈ bracketPairs, isBlank p.1 = false ∧ isBlank p.2 = false := by decide
  rw [bracketRule_eq_none_iff] at h ⊢
  intro pair hpair
  obtain ⟨hopen, hclose⟩ := hblank pair hpair
  rw [← count_level hopen, ← count_level hclose]
  exact h pair hpair

theorem arrowRule_of_level {t : Text} (h : arrowRule (level t) = none) : arrowRule t = none := by
  have harrow : level (Text.ofString "- >") = "- >" := by decide
  rw [arrowRule_eq_none_iff] at h ⊢
  intro hin
  refine h ?_
  rw [← harrow]
  exact hin.map levelBlank

end FlowDiagram.Code
