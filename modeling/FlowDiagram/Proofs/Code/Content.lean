import FlowDiagram.Proofs.Code.Cleaning

/-!
# The content of cleaned code

Content is what is neither blank nor a dash. Drawing arrows anew adds, drops and moves blanks and
dashes only, so that cleaned code has the content of the code that it was made from, once its
line-break tags are line ends.
-/

namespace FlowDiagram.Code
open FlowDiagram.Text

def isContent (c : CodePoint) : Bool := !isBlank c && c != '-'

/-- The text without its blanks and dashes. -/
def content (t : Text) : Text := t.filter isContent

@[simp] theorem content_append (t u : Text) : content (t ++ u) = content t ++ content u :=
  List.filter_append ..

theorem content_cons (c : CodePoint) (t : Text) :
    content (c :: t) = if isContent c then c :: content t else content t :=
  List.filter_cons ..

theorem content_sublist (t : Text) : List.Sublist (content t) t := List.filter_sublist

theorem content_eq_nil {t : Text} (h : ∀ c ∈ t, isContent c = false) : content t = [] := by
  refine List.filter_eq_nil_iff.2 fun c hc => ?_
  rw [h c hc]
  decide

theorem content_of_blanks {t : Text} (h : ∀ c ∈ t, isBlank c = true) : content t = [] :=
  content_eq_nil fun c hc => by simp [isContent, h c hc]

theorem content_of_fill {t : Text} (h : ∀ c ∈ t, isArrowFill c = true) : content t = [] := by
  refine content_eq_nil fun c hc => ?_
  have hfill := h c hc
  rw [isArrowFill, Bool.or_eq_true, beq_iff_eq] at hfill
  rcases hfill with rfl | hgap
  · decide
  · simp [isContent, isBlank_of_isGap hgap]

/-! ### Arrows drawn anew -/

/-- What stands between the first dash and the head of an arrow is no content. -/
theorem content_arrow {x : Text} (hx : ∀ c ∈ x, isArrowFill c = true) (t : Text) :
    content (CodePoint.ofChar '-' :: (x ++ CodePoint.ofChar '>' :: t)) =
      CodePoint.ofChar '>' :: content t := by
  have hdash : isContent '-' = false := by decide
  have hhead : isContent '>' = true := by decide
  simp [content_cons, content_of_fill hx, hdash, hhead]

theorem Redrawn.content_eq {m : Bool} {t u : Text} (h : Redrawn m t u) :
    content u = content t := by
  induction h with
  | nil => rfl
  | keep c h ih => rw [content_cons, content_cons, ih]
  | arrow hx hy h ih =>
    rw [content_arrow hx, content_arrow (isArrowFill_of_dashes hy), ih]
  | @openLabel t u gap first hgap hfirst h ih =>
    have hdashes : content (Text.ofString "--") = [] := by decide
    have hopening : content (Text.ofString "-- ") = [] := by decide
    have hrun := content_of_blanks fun c hc => isBlank_of_isGap (hgap.chars c hc)
    rw [content_append, content_append, content_append, hdashes, hopening, hrun, content_cons,
      content_cons, ih]
    rfl
  | @closeLabel t u b x hne hb hx h ih =>
    have hclosing : content (Text.ofString " -->") = [CodePoint.ofChar '>'] := by decide
    rw [content_append, content_append, content_of_blanks hb, content_arrow hx, hclosing, ih]
    rfl

/-! ### Cleaning -/

/-- Cleaning neither loses nor adds nor moves any content once line-break tags are line ends. -/
theorem content_clean (t : Text) :
    content (clean t) = content (breakLines t) ∧
      List.Sublist (content (breakLines t)) (clean t) := by
  obtain ⟨u, v, hu, hv, hclean⟩ := exists_redrawn_clean t
  have heq : content (clean t) = content (breakLines t) := by
    rw [hclean.content_eq, hv.content_eq, hu.content_eq]
  refine ⟨heq, ?_⟩
  rw [← heq]
  exact content_sublist (clean t)

end FlowDiagram.Code
