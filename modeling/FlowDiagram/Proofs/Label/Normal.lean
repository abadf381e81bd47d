import FlowDiagram.Label.Fragment
import FlowDiagram.Proofs.Label.Fallback
import FlowDiagram.Proofs.Text.Substitution
import FlowDiagram.Proofs.Text.Words

/-!
# The normal form of a label

Sanitizing leaves the words of a raw text, without structural characters and with single spaces
between them. This is a normal form: a label that is sanitized again stays as it is. Fragments and
titles come to it too, and what is taken away from them on the way is replaced by blanks at most, so
that no label holds anything that was not written in this order.
-/

namespace FlowDiagram.Label
open FlowDiagram.Text

/-! ### Words of a label -/

/-- The words of a raw text without its structural characters. -/
def labelWords (raw : Text) : List Text := words (raw.filter fun c => !isStructural c)

theorem isWordRun_of_mem_labelWords {raw : Text} : ∀ w ∈ labelWords raw, IsWordRun w :=
  fun _ => isWordRun_of_mem_words

theorem remainder_eq_spaced (raw : Text) : remainder raw = spaced (labelWords raw) :=
  trim_collapse _

theorem sanitize_eq_spaced (fallback raw : Text) :
    sanitize fallback raw = if labelWords raw = [] then fallback else spaced (labelWords raw) := by
  rw [sanitize_eq, remainder_eq_spaced]
  by_cases hnone : labelWords raw = []
  · rw [if_pos hnone, if_pos (by rw [hnone]; rfl)]
  · rw [if_neg hnone, if_neg (spaced_ne_nil isWordRun_of_mem_labelWords hnone)]

/-- Blanks before a raw text make no difference. -/
theorem sanitize_append_of_blanks (fallback : Text) {l : Text} (hl : ∀ c ∈ l, isBlank c = true)
    (raw : Text) : sanitize fallback (l ++ raw) = sanitize fallback raw := by
  have hwords : labelWords (l ++ raw) = labelWords raw := by
    rw [labelWords, List.filter_append]
    exact words_append_of_blanks (fun c hc => hl c (List.mem_of_mem_filter hc)) _
  rw [sanitize_eq_spaced, sanitize_eq_spaced, hwords]

/-! ### Sanitizing twice -/

theorem labelWords_remainder (raw : Text) : labelWords (remainder raw) = labelWords raw := by
  have hfree : (remainder raw).filter (fun c => !isStructural c) = remainder raw := by
    refine List.filter_eq_self.2 fun c hc => ?_
    rcases mem_remainder hc with rfl | ⟨-, hstructural, -⟩
    · decide
    · simp [hstructural]
  rw [labelWords, hfree, remainder_eq_spaced, words_spaced isWordRun_of_mem_labelWords]

theorem remainder_remainder (raw : Text) : remainder (remainder raw) = remainder raw := by
  rw [remainder_eq_spaced, labelWords_remainder, ← remainder_eq_spaced]

theorem sanitize_sanitize {fallback : Text} (hf : sanitize fallback fallback = fallback)
    (raw : Text) : sanitize fallback (sanitize fallback raw) = sanitize fallback raw := by
  rw [sanitize_eq fallback raw]
  split
  · exact hf
  · rename_i hne
    rw [sanitize_eq, remainder_remainder, if_neg hne]

/-! ### What can be seen -/

/-- The text without its blanks. -/
def visible (t : Text) : Text := t.filter fun c => !isBlank c

theorem visible_eq_nil {t : Text} (h : ∀ c ∈ t, isBlank c = true) : visible t = [] := by
  refine List.filter_eq_nil_iff.2 fun c hc => ?_
  rw [h c hc]
  decide

theorem visible_remainder_sublist (raw : Text) :
    List.Sublist (visible (remainder raw)) (visible raw) := by
  have hwords : visible (remainder raw) = visible (raw.filter fun c => !isStructural c) := by
    rw [remainder_eq_spaced, visible, filter_spaced isWordRun_of_mem_labelWords, labelWords,
      flatten_words, visible]
  rw [hwords]
  exact List.filter_sublist.filter _

theorem visible_replaceBy_sublist (s : Scanner) {replacement : Text}
    (h : ∀ c ∈ replacement, isBlank c = true) (t : Text) :
    List.Sublist (visible (substitute (s.replaceBy replacement) t)) (visible t) := by
  refine filter_substitute_sublist ?_ t
  intro t lexeme x hread
  obtain ⟨rfl, -⟩ := Scanner.replaceBy_eq_some_iff.1 hread
  exact visible_eq_nil h

theorem visible_strip_sublist (s : Scanner) (t : Text) :
    List.Sublist (visible (s.strip t)) (visible t) :=
  (s.suffix_strip t).sublist.filter _

theorem visible_withoutMarks_sublist (fragment : Text) :
    List.Sublist (visible (withoutMarks fragment)) (visible fragment) :=
  (visible_replaceBy_sublist emphasis (by simp) _).trans
    ((visible_replaceBy_sublist tag (by decide) _).trans
      (visible_replaceBy_sublist citation (by simp) fragment))

/-! ### Labels -/

/-- A text with nothing in it that was not written in the raw text, in the same order, or the
fallback. -/
def StemsFrom (fallback raw label : Text) : Prop :=
  label = fallback ∨ List.Sublist (visible label) (visible raw)

section
variable (fallback : Text) {raw : Text}

theorem stemsFrom_sanitize {t : Text} (h : List.Sublist (visible t) (visible raw)) :
    StemsFrom fallback raw (sanitize fallback t) := by
  rw [sanitize_eq]
  split
  · exact Or.inl rfl
  · exact Or.inr ((visible_remainder_sublist t).trans h)

theorem stemsFrom_ofFragment {t : Text} (h : List.Sublist (visible t) (visible raw)) :
    StemsFrom fallback raw (ofFragment fallback t) :=
  stemsFrom_sanitize fallback
    ((visible_strip_sublist bullet _).trans ((visible_withoutMarks_sublist t).trans h))

theorem stemsFrom_ofTitle (title : Text) : StemsFrom fallback title (ofTitle fallback title) :=
  stemsFrom_ofFragment fallback (visible_strip_sublist headingMarks title)

end

/-- What a label can be made of. -/
inductive Origin
  | rawLabel
  | fragment
  | title

def Origin.make (fallback : Text) : Origin → Text → Text
  | rawLabel => sanitize fallback
  | fragment => ofFragment fallback
  | title => ofTitle fallback

/-- Every label is a sanitized text. -/
theorem Origin.exists_sanitize (fallback : Text) (origin : Origin) (x : Text) :
    ∃ t, origin.make fallback x = sanitize fallback t := by
  cases origin with
  | rawLabel => exact ⟨x, rfl⟩
  | fragment => exact ⟨bullet.strip (withoutMarks x), rfl⟩
  | title => exact ⟨bullet.strip (withoutMarks (headingMarks.strip x)), rfl⟩

theorem Origin.stemsFrom_make (fallback : Text) (origin : Origin) (x : Text) :
    StemsFrom fallback x (origin.make fallback x) := by
  cases origin with
  | rawLabel => exact stemsFrom_sanitize fallback (List.Sublist.refl _)
  | fragment => exact stemsFrom_ofFragment fallback (List.Sublist.refl _)
  | title => exact stemsFrom_ofTitle fallback x

/-- The standard labels are words with single spaces, and each of them is a label already. -/
theorem labels_normal (origin : Origin) (x : Text) :
    let fallback := Settings.standard.fallbackLabel
    let label := origin.make fallback x
    sanitize fallback x =
        (if labelWords x = [] then Text.ofString "Step" else spaced (labelWords x)) ∧
      label ≠ [] ∧ sanitize fallback label = label ∧
      (label = Text.ofString "Step" ∨ List.Sublist (visible label) (visible x)) := by
  intro fallback label
  obtain ⟨t, ht⟩ : ∃ t, label = sanitize fallback t := origin.exists_sanitize fallback x
  refine ⟨sanitize_eq_spaced fallback x, ?_, ?_, origin.stemsFrom_make fallback x⟩
  · rw [ht]
    exact sanitize_ne_nil fallback (by decide) t
  · rw [ht]
    exact sanitize_sanitize (by decide) t

/-- The tag leaves the blank that keeps two words apart. -/
example : ofFragment "Step" "- **Check**<br/>[1]data" = Text.ofString "Check data" := by decide

end FlowDiagram.Label
