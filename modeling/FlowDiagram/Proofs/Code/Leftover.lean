import FlowDiagram.Proofs.Code.Cleaning
import FlowDiagram.Proofs.Text.Cut

/-!
# Fences that are left in code

One fence is taken off code, and there may be more. No step puts a fence into code, though: one that
is left stood in the text that the code was taken from, and the first closed block of a reply holds
none.
-/

namespace FlowDiagram.Code
open FlowDiagram.Text

/-! ### Redrawn arrows -/

theorem backtick_mem {t : Text} (h : fence <:+: t) : CodePoint.ofChar '\x60' ∈ t := by
  obtain ⟨l, r, rfl⟩ := h
  simp [fence, Text.ofString]

namespace Redrawn
variable {m : Bool} {t u : Text}

theorem fenced_cons (h : Redrawn m t u) (ih : fence <:+: u → fence <:+: t) (c : CodePoint)
    (hu : fence <:+: c :: u) : fence <:+: c :: t := by
  rcases List.infix_cons_iff.1 hu with ⟨v, hv⟩ | hu
  · obtain ⟨s, hs, -⟩ := exists_of_append_right (hv ▸ keep c h) (by decide) (fun _ => by decide)
    exact hs ▸ (List.prefix_append fence s).isInfix
  · exact List.infix_cons_iff.2 (Or.inr (ih hu))

/-- Redrawing puts no fence into a text. -/
theorem fenced (h : Redrawn m t u) (hu : fence <:+: u) : fence <:+: t := by
  induction h with
  | nil => exact hu
  | keep c h ih => exact h.fenced_cons ih c hu
  | @arrow t u x y hx hy h ih =>
    rw [← List.cons_append] at hu
    have htail : fence <:+: u := by
      refine (infix_or_infix_of_append_cons hu (by decide)).resolve_left fun hdashes => ?_
      rcases List.mem_cons.1 (backtick_mem hdashes) with heq | hmem
      · exact absurd heq (by decide)
      · exact absurd (hy _ hmem) (by decide)
    exact (ih htail).trans ⟨CodePoint.ofChar '-' :: (x ++ [CodePoint.ofChar '>']), [], by simp⟩
  | @openLabel t u gap first hgap hfirst h ih =>
    -- A label may start with a backtick, so that its first character is not set aside here.
    have hshape : fence <:+: Text.ofString "--" ++ CodePoint.ofChar ' ' :: (first :: u) := hu
    have htail : fence <:+: first :: u :=
      (infix_or_infix_of_append_cons hshape (by decide)).resolve_left (by decide)
    exact (h.fenced_cons ih first htail).trans ⟨Text.ofString "--" ++ gap, [], by simp⟩
  | @closeLabel t u b x hne hb hx h ih =>
    have hshape : fence <:+: Text.ofString " --" ++ CodePoint.ofChar '>' :: u := hu
    have htail : fence <:+: u :=
      (infix_or_infix_of_append_cons hshape (by decide)).resolve_left (by decide)
    exact (ih htail).trans
      ⟨b ++ CodePoint.ofChar '-' :: (x ++ [CodePoint.ofChar '>']), [], by simp⟩

end Redrawn

/-! ### The steps that code goes through -/

theorem fence_infix_of_breakLines {t : Text} (h : fence <:+: breakLines t) : fence <:+: t := by
  refine Scanner.infix_of_infix_substitute ?_ (by decide : CodePoint.ofChar '\n' ∉ fence) h
  intro t lexeme rest hread
  obtain ⟨b, r, blanks, slash, -, -, -, -, rfl, -⟩ := exists_of_read_breakTag hread
  exact List.cons_ne_nil _ _

theorem fence_infix_of_clean {t : Text} (h : fence <:+: clean t) : fence <:+: t := by
  obtain ⟨u, v, hu, hv, hclean⟩ := exists_redrawn_clean t
  exact fence_infix_of_breakLines (hu.fenced (hv.fenced (hclean.fenced h)))

theorem exists_of_closedBlock? {reply code : Text} (h : closedBlock? reply = some code) :
    ∃ block, code = trim block ∧ ¬ fence <:+: block := by
  unfold closedBlock? at h
  obtain ⟨⟨before, inside⟩, -, hinside⟩ := Option.bind_eq_some_iff.1 h
  obtain ⟨⟨block, rest⟩, hcut, hblock⟩ := Option.bind_eq_some_iff.1 hinside
  refine ⟨block, (Option.some.inj hblock).symm, fun hfence => ?_⟩
  exact not_infix_of_cutAt? (by decide) hcut (hfence.trans (List.prefix_append _ _).isInfix)

theorem not_fence_infix_of_closedBlock? {reply code : Text} (h : closedBlock? reply = some code) :
    ¬ fence <:+: code := by
  obtain ⟨block, rfl, hblock⟩ := exists_of_closedBlock? h
  exact fun hfence => hblock (hfence.trans (infix_trim block))

theorem fence_infix_of_firstBlock {reply : Text} (h : fence <:+: firstBlock reply) :
    closedBlock? reply = none ∧ fence <:+: reply := by
  unfold firstBlock at h
  cases hblock : closedBlock? reply with
  | none =>
    rw [hblock, Option.getD_none] at h
    exact ⟨rfl, h.trans (infix_unfence reply)⟩
  | some code =>
    rw [hblock, Option.getD_some] at h
    exact absurd h (not_fence_infix_of_closedBlock? hblock)

end FlowDiagram.Code
