import FlowDiagram.Proofs.Code.Steps

/-!
# Cleaning line by line

Only line-break tags reach over line ends. Once they are line ends themselves, no whole tag is left
inside a line, and all other repairs work on each line alone.
-/

namespace FlowDiagram.Code
open FlowDiagram.Text FlowDiagram.Text.Scanner

/-! ### Arrows -/

theorem closeArrows_append_lineFeed (s t : Text) :
    closeArrows (s ++ CodePoint.ofChar '\n' :: t) =
      closeArrows s ++ CodePoint.ofChar '\n' :: closeArrows t := by
  rw [closeArrows, headed_splitLongArrow.substitute_append_cons avoids_splitLongArrow,
    headed_splitShortArrow.substitute_append_cons avoids_splitShortArrow]
  rfl

theorem repairArrows_append_lineFeed (s t : Text) :
    repairArrows (s ++ CodePoint.ofChar '\n' :: t) =
      repairArrows s ++ CodePoint.ofChar '\n' :: repairArrows t := by
  rw [repairArrows, closeArrows_append_lineFeed,
    headed_closeLabelledArrow.substitute_append_cons avoids_closeLabelledArrow]
  rfl

/-! ### Line-break tags -/

/-- No whole line-break tag is left inside a line. -/
theorem breakLines_of_infix {l t : Text} (hl : CodePoint.ofChar '\n' ∉ l)
    (h : l <:+: breakLines t) : breakLines l = l := by
  refine Text.substitute_eq_self fun u hu => ?_
  cases hread : breakTag.replaceBy "\n" u with
  | none => rfl
  | some result =>
    obtain ⟨lexeme, x⟩ := result
    have hsteady := steady_breakTag "\n"
    have hin : lexeme <:+: l := (hsteady.isPrefix hread).isInfix.trans hu.isInfix
    have hfeed : CodePoint.ofChar '\n' ∉ lexeme := fun hmem => hl (hin.subset hmem)
    have hself := hsteady.read_append hread []
    rw [List.append_nil] at hself
    obtain ⟨-, rest, htag⟩ := replaceBy_eq_some_iff.1 hself
    obtain rfl : rest = [] := by simpa using breakTag.append_of_read htag
    exact absurd (hin.trans h) (not_infix_substitute hsteady htag hfeed t)

/-! ### Lines -/

theorem repairArrows_lines {u : Text}
    (h : ∀ l : Text, CodePoint.ofChar '\n' ∉ l → l <:+: u → breakLines l = l) :
    repairArrows u = joinWith "\n" ((u.splitOn (CodePoint.ofChar '\n')).map clean) := by
  induction u using head_induction (CodePoint.ofChar '\n') with
  | free u hu =>
    have hclean : clean u = repairArrows u := by
      rw [clean_eq_repairArrows, h u hu List.infix_rfl]
    rw [List.splitOn_eq_singleton hu, List.map_singleton, joinWith_singleton, hclean]
  | part l u hl ih =>
    have hline : clean l = repairArrows l := by
      rw [clean_eq_repairArrows, h l hl (List.prefix_append _ _).isInfix]
    have hrest := ih fun k hk hin => h k hk (hin.trans ⟨l ++ [CodePoint.ofChar '\n'], [], by simp⟩)
    have hne : (u.splitOn (CodePoint.ofChar '\n')).map clean ≠ [] := by
      simp
    rw [List.splitOn_append_cons_self_of_not_mem hl, List.map_cons, joinWith_cons _ _ hne, hline,
      ← hrest, repairArrows_append_lineFeed, List.append_assoc]
    rfl

/-- Cleaned code is its cleaned lines, where a line ends at a line feed or a line-break tag. -/
theorem clean_eq_joinWith (t : Text) :
    clean t = joinWith "\n" (((breakLines t).splitOn (CodePoint.ofChar '\n')).map clean) :=
  repairArrows_lines fun _ hl hin => breakLines_of_infix hl hin

end FlowDiagram.Code
