import FlowDiagram.Proofs.Label.Bullet
import FlowDiagram.Proofs.Label.Normal

/-!
# Labels of decorated prose

The label of decorated prose is the label of the plain text in it, with a space for each tag. A
bullet before it and heading marks before that make no difference. Only plain text that starts like
a bullet itself loses more, and only if no other bullet is before it.
-/

namespace FlowDiagram.Label
open FlowDiagram.Text FlowDiagram.Text.Scanner

/-! ### Headings -/

/-- One to six heading marks between blanks. -/
structure Heading where
  lead : Text
  marks : Nat
  gap : Text
  one_le : 1 ≤ marks
  le_six : marks ≤ 6
  lead_blank : ∀ c ∈ lead, isBlank c = true
  gap_blank : ∀ c ∈ gap, isBlank c = true

def Heading.written (h : Heading) : Text :=
  h.lead ++ List.replicate h.marks (CodePoint.ofChar '#') ++ h.gap

theorem Heading.strip_written (h : Heading) {t : Text} (hmark : Stops (· == '#') t)
    (hblank : Stops isBlank t) : headingMarks.strip (h.written ++ t) = t := by
  have hlead : (atLeast 0 isBlank).read
      (h.lead ++ (List.replicate h.marks (CodePoint.ofChar '#') ++ (h.gap ++ t))) =
        some (h.lead, List.replicate h.marks (CodePoint.ofChar '#') ++ (h.gap ++ t)) := by
    rw [read_atLeast_eq_some_iff]
    refine ⟨rfl, h.lead_blank, ?_, Nat.zero_le _⟩
    obtain ⟨n, hn⟩ := Nat.exists_eq_add_of_le' h.one_le
    rw [hn]
    exact stops_cons.2 (by decide)
  have hmarks : (between 1 6 (· == '#')).read
      (List.replicate h.marks (CodePoint.ofChar '#') ++ (h.gap ++ t)) =
        some (List.replicate h.marks (CodePoint.ofChar '#'), h.gap ++ t) := by
    rw [read_between_eq_some_iff]
    refine ⟨rfl, ?_, ?_, ?_, Or.inr ?_⟩
    · intro c hc
      rw [List.eq_of_mem_replicate hc]
      decide
    · rw [List.length_replicate]
      exact h.one_le
    · rw [List.length_replicate]
      exact h.le_six
    · refine stops_append (fun c hc => ?_) hmark
      exact beq_eq_false_iff_ne.2 (ne_of_class (h.gap_blank c hc) (by decide))
  have hgap : (atLeast 0 isBlank).read (h.gap ++ t) = some (h.gap, t) :=
    read_atLeast_eq_some_iff.2 ⟨rfl, h.gap_blank, hblank, Nat.zero_le _⟩
  have hread : headingMarks.read (h.written ++ t) = some (h.written, t) := by
    have hparts : headingMarks.read
        (h.lead ++ (List.replicate h.marks (CodePoint.ofChar '#') ++ (h.gap ++ t))) =
          some (h.lead ++ List.replicate h.marks (CodePoint.ofChar '#') ++ h.gap, t) :=
      read_seq_of_read (read_seq_of_read hlead hmarks) hgap
    simpa only [written, List.append_assoc] using hparts
  exact strip_of_read hread

/-! ### Labels of decorated prose -/

/-- Decorated prose: segments, and a bullet before them if there is one. -/
def decorated (bullet? : Option Bullet) (segments : List Segment) : Text :=
  (bullet?.map Bullet.written).getD [] ++ segments.flatMap Segment.written

def undecorated (segments : List Segment) : Text := segments.flatMap Segment.bare

theorem ofFragment_bullet (fallback : Text) (b : Bullet) (segments : List Segment) :
    ofFragment fallback (decorated (some b) segments) =
      sanitize fallback (undecorated segments) := by
  have hmarks : withoutMarks (decorated (some b) segments) = b.written ++ undecorated segments :=
    withoutMarks_append b.replaces_citation b.replaces_tag b.replaces_emphasis segments
  -- The blanks behind a bullet go with it, and those that the plain text starts with too.
  have hblanks := sanitize_append_of_blanks fallback (l := (undecorated segments).takeWhile isBlank)
    (fun c hc => List.mem_takeWhile_imp hc) ((undecorated segments).dropWhile isBlank)
  rw [List.takeWhile_append_dropWhile] at hblanks
  rw [ofFragment, hmarks, strip_of_read (b.read_written _), hblanks]

theorem ofFragment_segments (fallback : Text) {segments : List Segment}
    (h : ¬ StartsBullet (undecorated segments)) :
    ofFragment fallback (decorated none segments) = sanitize fallback (undecorated segments) := by
  have hnil : ∀ {s : Scanner} {replacement : Text}, Replaces (s.replaceBy replacement) [] [] :=
    .of_chars (by simp)
  have hmarks : withoutMarks (decorated none segments) = undecorated segments :=
    withoutMarks_append hnil hnil hnil segments
  rw [ofFragment, hmarks, strip_of_none (Bullet.read_eq_none_iff.2 h)]

theorem ofTitle_heading (fallback : Text) (heading : Heading) {t : Text}
    (hmark : Stops (· == '#') t) (hblank : Stops isBlank t) :
    ofTitle fallback (heading.written ++ t) = ofFragment fallback t := by
  rw [ofTitle, heading.strip_written hmark hblank]

/-- The label of decorated prose is that of the plain text in it, and heading marks before it make
no difference. Plain text that starts like a bullet has to have a bullet before it. -/
theorem ofFragment_decorated (fallback : Text) (bullet? : Option Bullet)
    (segments : List Segment) :
    ((bullet? = none → ¬ StartsBullet (undecorated segments)) →
      ofFragment fallback (decorated bullet? segments) =
        sanitize fallback (undecorated segments)) ∧
    ∀ heading : Heading, Stops (· == '#') (decorated bullet? segments) →
      Stops isBlank (decorated bullet? segments) →
      ofTitle fallback (heading.written ++ decorated bullet? segments) =
        ofFragment fallback (decorated bullet? segments) := by
  constructor
  · intro h
    cases bullet? with
    | none => exact ofFragment_segments fallback (h rfl)
    | some b => exact ofFragment_bullet fallback b segments
  · intro heading hmark hblank
    exact ofTitle_heading fallback heading hmark hblank

/-- A citation between emphasis and a tag, and another one at the end. -/
theorem ofFragment_decorated_meter :
    let segments : List Segment :=
      [.plain "Check " (by decide), .emphasised .stars, .plain "meter" (by decide),
        .citedNumber true "12" (by decide) (by decide) (by decide), .emphasised .stars,
        .inlineTag "br/" (by decide) (by decide), .plain "data" (by decide),
        .citedSource "4†source" (by decide)]
    let heading : Heading := ⟨" ", 2, [], by decide, by decide, by decide, by decide⟩
    let text : Text := "Check **meter[^12]**<br/>data【4†source】"
    decorated none segments = text ∧ heading.written ++ text = ofString " ##" ++ text ∧
      ofFragment "Step" text = ofString "Check meter data" ∧
      ofTitle "Step" (heading.written ++ text) = ofString "Check meter data" := by
  intro segments heading text
  have htext : decorated none segments = text := by decide
  obtain ⟨hfragment, htitle⟩ := ofFragment_decorated "Step" none segments
  have hlabel := hfragment fun _ => Bullet.read_eq_none_iff.1 (by decide)
  have hheading := htitle heading (by rw [htext]; exact stops_cons.2 (by decide))
    (by rw [htext]; exact stops_cons.2 (by decide))
  rw [htext] at hlabel hheading
  have hwords : sanitize "Step" (undecorated segments) = ofString "Check meter data" := by decide
  exact ⟨htext, rfl, hlabel.trans hwords, hheading.trans (hlabel.trans hwords)⟩

end FlowDiagram.Label
