import FlowDiagram.Proofs.Code.Labelled
import FlowDiagram.Proofs.Code.Report

/-!
# The steps of cleaning

Every step of cleaning is steady. The three that deal with arrows go from head to head and never over
a line feed, so that they work line by line and arrow by arrow.
-/

namespace FlowDiagram.Code
open FlowDiagram.Text FlowDiagram.Text.Scanner

/-! ### Line-break tags -/

theorem read_breakTag {b r : CodePoint} {blanks slash : Text}
    (hb : b = CodePoint.ofChar 'b' ∨ b = CodePoint.ofChar 'B')
    (hr : r = CodePoint.ofChar 'r' ∨ r = CodePoint.ofChar 'R')
    (hblanks : ∀ c ∈ blanks, isBlank c = true) (hslash : slash = Text.ofString "/" ∨ slash = [])
    (s : Text) :
    breakTag.read (CodePoint.ofChar '<' :: b :: r :: (blanks ++ slash ++ CodePoint.ofChar '>' :: s)) =
      some (CodePoint.ofChar '<' :: b :: r :: (blanks ++ slash ++ [CodePoint.ofChar '>']), s) := by
  have hopen : (char '<').read (CodePoint.ofChar '<' :: b :: r ::
      (blanks ++ (slash ++ CodePoint.ofChar '>' :: s))) = some ([CodePoint.ofChar '<'], _) :=
    read_char_eq_some_iff.2 ⟨rfl, rfl⟩
  have hend : (char '>').read (CodePoint.ofChar '>' :: s) = some ([CodePoint.ofChar '>'], s) :=
    read_char_eq_some_iff.2 ⟨rfl, rfl⟩
  have hb' : (one fun c => c == 'b' || c == 'B').read
      (b :: r :: (blanks ++ (slash ++ CodePoint.ofChar '>' :: s))) = some ([b], _) :=
    read_one_eq_some_iff.2 ⟨b, by simpa using hb, rfl, rfl⟩
  have hr' : (one fun c => c == 'r' || c == 'R').read
      (r :: (blanks ++ (slash ++ CodePoint.ofChar '>' :: s))) = some ([r], _) :=
    read_one_eq_some_iff.2 ⟨r, by simpa using hr, rfl, rfl⟩
  have hblank : (atLeast 0 isBlank).read (blanks ++ (slash ++ CodePoint.ofChar '>' :: s)) =
      some (blanks, slash ++ CodePoint.ofChar '>' :: s) := by
    refine read_atLeast_eq_some_iff.2 ⟨rfl, hblanks, ?_, Nat.zero_le _⟩
    rcases hslash with rfl | rfl
    · exact stops_cons.2 (by decide)
    · exact stops_cons.2 (by decide)
  have hclosed : (optional '/').read (slash ++ CodePoint.ofChar '>' :: s) =
      some (slash, CodePoint.ofChar '>' :: s) := by
    rw [read_optional_eq_some_iff]
    rcases hslash with rfl | rfl
    · exact Or.inl ⟨rfl, rfl⟩
    · exact Or.inr ⟨rfl, rfl, stops_cons.2 (by decide)⟩
  have hstart := read_seq_of_read hopen hb'
  have hname := read_seq_of_read hstart hr'
  have hspaced := read_seq_of_read hname hblank
  have hinside := read_seq_of_read hspaced hclosed
  have hread := read_seq_of_read hinside hend
  simpa [breakTag] using hread

theorem steady_breakTag (replacement : Text) : Steady (breakTag.replaceBy replacement) :=
  steady_replaceBy fun hread => by
    obtain ⟨b, r, blanks, slash, hb, hr, hblanks, hslash, rfl, -⟩ := exists_of_read_breakTag hread
    refine ⟨List.cons_ne_nil _ _, fun s => ?_⟩
    have h := read_breakTag hb hr hblanks hslash s
    simpa [Text.ofString] using h

/-! ### Arrows -/

section
variable {scanner : Scanner} {l r : Text}

theorem ReadsGap.headed {b : Text} (h : ReadsGap scanner l (r ++ [CodePoint.ofChar '>']))
    (hl : CodePoint.ofChar '>' ∉ l) (hr : CodePoint.ofChar '>' ∉ r)
    (hb : CodePoint.ofChar '>' ∉ b) :
    Headed (scanner.replaceBy (b ++ [CodePoint.ofChar '>'])) '>' := by
  refine headed_replaceBy (fun hread => ?_) hb
  obtain ⟨gap, hgap, rfl, -⟩ := h.1 hread
  refine ⟨⟨l ++ gap ++ r, by simp, ?_⟩, fun s => h.2 ⟨gap, hgap, rfl, rfl⟩⟩
  simp [hl, hgap.head_notMem, hr]

theorem ReadsGap.avoids_lineFeed (h : ReadsGap scanner l r) (hl : CodePoint.ofChar '\n' ∉ l)
    (hr : CodePoint.ofChar '\n' ∉ r) (replacement : Text) :
    Avoids (scanner.replaceBy replacement) '\n' := by
  intro t lexeme x hread
  obtain ⟨-, rest, hscan⟩ := replaceBy_eq_some_iff.1 hread
  obtain ⟨gap, hgap, rfl, -⟩ := h.1 hscan
  simp [hl, hgap.lineFeed_notMem, hr]

end

theorem headed_splitLongArrow : Headed (splitLongArrow.replaceBy "-->") '>' :=
  readsGap_splitLongArrow.headed (r := []) (b := "--") (by decide) (by decide) (by decide)

theorem headed_splitShortArrow : Headed (splitShortArrow.replaceBy "->") '>' :=
  readsGap_splitShortArrow.headed (r := "-") (b := "-") (by decide) (by decide) (by decide)

theorem headed_closeLabelledArrow : Headed closeLabelledArrow '>' where
  ne_nil h := by
    obtain ⟨a, rfl, -, -⟩ := closeLabelledArrow_eq_some_iff.1 h
    simp [LabelledArrow.text]
  isPrefix h := by
    obtain ⟨a, -, -, hprefix⟩ := closeLabelledArrow_eq_some_iff.1 h
    exact hprefix
  read_append h s := by
    obtain ⟨a, htext, hwritten, -⟩ := closeLabelledArrow_eq_some_iff.1 h
    exact closeLabelledArrow_eq_some_iff.2
      ⟨a, htext, hwritten, List.prefix_append _ s⟩
  exists_lexeme h := by
    obtain ⟨a, rfl, -, -⟩ := closeLabelledArrow_eq_some_iff.1 h
    exact ⟨a.body, rfl, a.head_notMem_body⟩
  exists_replacement h := by
    obtain ⟨a, -, rfl, -⟩ := closeLabelledArrow_eq_some_iff.1 h
    exact ⟨a.neat.body, a.text_neat.symm, a.neat.head_notMem_body⟩

theorem avoids_splitLongArrow : Avoids (splitLongArrow.replaceBy "-->") '\n' :=
  readsGap_splitLongArrow.avoids_lineFeed (by decide) (by decide) _

theorem avoids_splitShortArrow : Avoids (splitShortArrow.replaceBy "->") '\n' :=
  readsGap_splitShortArrow.avoids_lineFeed (by decide) (by decide) _

theorem avoids_closeLabelledArrow : Avoids closeLabelledArrow '\n' := by
  intro t lexeme x h
  obtain ⟨a, rfl, -, -⟩ := closeLabelledArrow_eq_some_iff.1 h
  exact a.lineFeed_notMem_text

/-- Cleaning without the step for line-break tags. -/
def repairArrows (t : Text) : Text := substitute closeLabelledArrow (closeArrows t)

theorem clean_eq_repairArrows (t : Text) : clean t = repairArrows (breakLines t) := rfl

theorem clean_eq_nil_iff {t : Text} : clean t = [] ↔ t = [] := by
  have hlabelled : ∀ {t lexeme x : Text}, closeLabelledArrow t = some (lexeme, x) → x ≠ [] := by
    intro t lexeme x hread
    obtain ⟨_, _, _, _, _, -, -, -, -, -, rfl, -⟩ := exists_of_closeLabelledArrow hread
    simp [Text.ofString]
  rw [clean, substitute_eq_nil_iff hlabelled, closeArrows, breakLines,
    Scanner.substitute_replaceBy_eq_nil_iff (by decide),
    Scanner.substitute_replaceBy_eq_nil_iff (by decide),
    Scanner.substitute_replaceBy_eq_nil_iff (by decide)]

end FlowDiagram.Code
