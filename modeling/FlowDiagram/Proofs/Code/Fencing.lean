import FlowDiagram.Proofs.Code.Block
import FlowDiagram.Proofs.Code.Rule

/-!
# Fencing code

Code is fenced by a line with a tag before it and a line of backticks behind it. Whatever the tag and
the gaps are, the code is found again when the fence is taken off, a verdict does not see the fence,
and a reply may hold any text around it.
-/

namespace FlowDiagram.Code
open FlowDiagram.Text FlowDiagram.Text.Scanner

/-! ### Characters of a tag line -/

theorem isTagChar_of_isGap {c : CodePoint} (h : isGap c = true) : isTagChar c = false := by
  simp only [isGap, Bool.or_eq_true, beq_iff_eq] at h
  rcases h with rfl | rfl <;> decide

/-- What is written around fenced code: a tag behind the first fence, and gaps at both line ends. -/
structure Fencing where
  tag : Text
  tagGap : Text
  endGap : Text
  tag_chars : ∀ c ∈ tag, isTagChar c = true
  tagGap_chars : ∀ c ∈ tagGap, isGap c = true
  endGap_chars : ∀ c ∈ endGap, isGap c = true

namespace Fencing

def wrap (f : Fencing) (code : Text) : Text :=
  fence ++ f.tag ++ f.tagGap ++ "\n" ++ code ++ "\n" ++ fence ++ f.endGap

variable (f : Fencing) {code : Text}

theorem stops_isTagChar (t : Text) : Stops isTagChar (f.tagGap ++ CodePoint.ofChar '\n' :: t) :=
  stops_append (fun c hc => isTagChar_of_isGap (f.tagGap_chars c hc)) (stops_cons.2 (by decide))

theorem strip_openingFence (t : Text) :
    openingFence.strip (fence ++ f.tag ++ f.tagGap ++ "\n" ++ t) = t := by
  have hread : openingFence.read (fence ++ f.tag ++ f.tagGap ++ "\n" ++ t) =
      some (fence ++ f.tag ++ f.tagGap ++ "\n", t) := by
    rw [read_openingFence_eq_some_iff]
    refine ⟨f.tag, f.tagGap, "\n", rfl, rfl, f.tag_chars, ?_, f.tagGap_chars, ?_, Or.inl rfl⟩
    · rw [List.append_assoc]
      exact f.stops_isTagChar t
    · exact stops_cons.2 (by decide)
  exact strip_of_read hread

theorem strip_tagLine (t : Text) : tagLine.strip (f.tag ++ f.tagGap ++ "\n" ++ t) = t := by
  have hread : tagLine.read (f.tag ++ f.tagGap ++ "\n" ++ t) =
      some (f.tag ++ f.tagGap ++ "\n", t) := by
    simp only [tagLine, read_seq_eq_some_iff, read_atLeast_eq_some_iff, read_char_eq_some_iff]
    refine ⟨f.tag ++ f.tagGap, "\n" ++ t, "\n", ⟨f.tag, f.tagGap ++ ("\n" ++ t), f.tagGap,
      ⟨by simp, f.tag_chars, f.stops_isTagChar t, Nat.zero_le _⟩,
      ⟨rfl, f.tagGap_chars, stops_cons.2 (by decide), Nat.zero_le _⟩, rfl⟩, ⟨rfl, rfl⟩, rfl⟩
  exact strip_of_read hread

/-! ### Taking the fence off -/

section
variable {l r : Text} (hl : ∀ c ∈ l, isBlank c = true) (hr : ∀ c ∈ r, isBlank c = true)

include hl hr in
theorem trim_wrap : trim (l ++ f.wrap code ++ r) =
    fence ++ f.tag ++ f.tagGap ++ "\n" ++ (code ++ ("\n" ++ fence)) := by
  have htrimmed : Trimmed (fence ++ f.tag ++ f.tagGap ++ "\n" ++ (code ++ ("\n" ++ fence))) := by
    constructor
    · intro c hc
      obtain rfl : CodePoint.ofChar '\x60' = c := by simpa [fence, Text.ofString] using hc
      decide
    · intro c hc
      have hlast : (fence ++ f.tag ++ f.tagGap ++ "\n" ++ (code ++ ("\n" ++ fence))).getLast? =
          some (CodePoint.ofChar '\x60') := by
        simp only [List.getLast?_append]
        rfl
      obtain rfl := Option.some.inj (hlast.symm.trans hc)
      decide
  have hend : ∀ c ∈ f.endGap ++ r, isBlank c = true := by
    intro c hc
    rcases List.mem_append.1 hc with hc | hc
    · exact isBlank_of_isGap (f.endGap_chars c hc)
    · exact hr c hc
  rw [← trim_append_append hl htrimmed hend]
  simp [wrap]

include hl hr in
theorem unfence_wrap (hcode : Trimmed code) : unfence (l ++ f.wrap code ++ r) = code := by
  rw [unfence, f.trim_wrap hl hr, strip_openingFence, dropClosingFence_lineFeed,
    trim_eq_self hcode]

end

/-! ### Code that has no fence at its ends -/

theorem unfence_blanks {l r : Text} (hl : ∀ c ∈ l, isBlank c = true)
    (hr : ∀ c ∈ r, isBlank c = true) (hcode : Trimmed code) (hopen : ¬ fence <+: code)
    (hclose : ¬ fence <:+ code) : unfence (l ++ code ++ r) = code := by
  rw [unfence, trim_append_append hl hcode hr,
    strip_of_none (read_openingFence_eq_none_iff.2 hopen),
    dropClosingFence_of_not_suffix hclose, trim_eq_self hcode]

/-- The verdict on a text around trimmed code depends on the code alone. -/
theorem validate_of_unfence {t : Text} (hcode : Trimmed code) (hne : code ≠ [])
    (ht : unfence t = code) (minLength : Int) :
    validate minLength (some t) = judge minLength code := by
  obtain ⟨c, s, rfl⟩ := List.exists_cons_of_ne_nil hne
  have hmem : c ∈ unfence t := ht ▸ List.mem_cons_self ..
  rw [validate_of_mem_unfence hmem (hcode.head c rfl), ht]

/-! ### Finding the block -/

/-- Behind a text in which no fence has begun when it ends, only a whole fence makes one. -/
theorem not_fence_infix_append {s t : Text} (hs : ¬ fence <:+: s)
    (hlast : s.getLast? ≠ some (CodePoint.ofChar '\x60')) (ht : ¬ fence <:+: t) :
    ¬ fence <:+: s ++ t := by
  have hall : ∀ c ∈ fence, c = CodePoint.ofChar '\x60' := by decide
  intro hin
  rcases List.infix_append_iff.1 hin with h | h | ⟨a, b, hab, ha, hb⟩
  · exact hs h
  · exact ht h
  · rcases List.eq_nil_or_concat a with rfl | ⟨u, c, rfl⟩
    · rw [List.nil_append] at hab
      rw [← hab] at hb
      exact ht hb.isInfix
    · obtain ⟨v, rfl⟩ := ha
      have hc : c = CodePoint.ofChar '\x60' := hall c (by rw [hab]; simp)
      exact hlast (by rw [hc]; simp)

theorem firstBlock_wrap_trim (hfence : ¬ fence <:+: code) {before : Text}
    (hbefore : ¬ fence <:+: before)
    (hlast : before.getLast? ≠ some (CodePoint.ofChar '\x60')) (after : Text) :
    firstBlock (before ++ f.wrap code ++ after) = trim code := by
  have hopen : cutAt? fence (before ++ f.wrap code ++ after) = some (before,
      f.tag ++ f.tagGap ++ "\n" ++ (code ++ "\n" ++ fence ++ (f.endGap ++ after))) := by
    rw [← cutAt?_append (not_fence_infix_append hbefore hlast (by decide)) (by decide)]
    simp [wrap]
  have hline : ¬ fence <:+: code ++ "\n" := by
    intro hin
    rcases infix_or_infix_of_append_cons hin (by decide) with h | h
    · exact hfence h
    · exact absurd h (by decide)
  have hclose : cutAt? fence (code ++ "\n" ++ fence ++ (f.endGap ++ after)) =
      some (code ++ "\n", f.endGap ++ after) :=
    cutAt?_append (not_fence_infix_append hline (by simp [Text.ofString]) (by decide)) (by decide)
  have htrim : trim (code ++ "\n") = trim code := by
    have hfeed : ∀ c ∈ Text.ofString "\n", isBlank c = true := by decide
    simpa using trim_blanks (l := []) (by simp) hfeed code
  have hblock : closedBlock? (before ++ f.wrap code ++ after) = some (trim code) := by
    simp only [closedBlock?, hopen, strip_tagLine, hclose, htrim, Option.bind_eq_bind,
      Option.bind_some]
    rfl
  rw [firstBlock, hblock, Option.getD_some]

theorem firstBlock_wrap (hcode : Trimmed code) (hfence : ¬ fence <:+: code) {before : Text}
    (hbefore : ¬ fence <:+: before)
    (hlast : before.getLast? ≠ some (CodePoint.ofChar '\x60')) (after : Text) :
    firstBlock (before ++ f.wrap code ++ after) = code := by
  rw [f.firstBlock_wrap_trim hfence hbefore hlast, trim_eq_self hcode]

/-- Neither the code nor the verdict on it depends on the fence around them. -/
theorem wrap_transparent (hcode : Trimmed code) :
    (∀ l r : Text, (∀ c ∈ l, isBlank c = true) → (∀ c ∈ r, isBlank c = true) →
      unfence (l ++ f.wrap code ++ r) = code ∧
      (code ≠ [] → ¬ fence <+: code → ¬ fence <:+ code → ∀ minLength,
        validate minLength (some (l ++ f.wrap code ++ r)) = validate minLength (some code) ∧
        validate minLength (some (l ++ code ++ r)) = validate minLength (some code))) ∧
    (¬ fence <:+: code → ∀ before after : Text, ¬ fence <:+: before →
      before.getLast? ≠ some (CodePoint.ofChar '\x60') →
      firstBlock (before ++ f.wrap code ++ after) = code) := by
  constructor
  · intro l r hl hr
    refine ⟨f.unfence_wrap hl hr hcode, ?_⟩
    intro hne hopen hclose minLength
    have hbare : unfence code = code := by
      simpa using unfence_blanks (l := []) (r := []) (by simp) (by simp) hcode hopen hclose
    rw [validate_of_unfence hcode hne (f.unfence_wrap hl hr hcode),
      validate_of_unfence hcode hne (unfence_blanks hl hr hcode hopen hclose),
      validate_of_unfence hcode hne hbare]
    exact ⟨rfl, rfl⟩
  · intro hfence before after hbefore hlast
    exact f.firstBlock_wrap hcode hfence hbefore hlast after

/-- The reply holds single backticks before the block and a second block behind it. -/
theorem wrap_transparent_mermaid :
    let f : Fencing := ⟨"mermaid", " \t", " ", by decide, by decide, by decide⟩
    let code : Text := "graph TD\n    a --> b"
    let text : Text := "\n " ++ f.wrap code ++ "\r\n"
    f.wrap code = Text.ofString "```mermaid \t\ngraph TD\n    a --> b\n``` " ∧
      unfence text = code ∧
      validate 15 (some text) = validate 15 (some code) ∧
      firstBlock ("Use `this`:\n" ++ f.wrap code ++ "\n```\nor that\n```") = code := by
  intro f code text
  have hcode : Trimmed code := ⟨by decide, by decide⟩
  obtain ⟨houter, hblock⟩ := f.wrap_transparent hcode
  obtain ⟨hunfence, hverdict⟩ := houter "\n " "\r\n" (by decide) (by decide)
  refine ⟨by decide, hunfence, ?_, ?_⟩
  · exact (hverdict (by decide) (by decide) (by decide) 15).1
  · exact hblock (by decide) _ _ (by decide) (by decide)

end Fencing

end FlowDiagram.Code
