import FlowDiagram.Proofs.Code.Fence
import FlowDiagram.Proofs.Code.Rule
import FlowDiagram.Proofs.Text.Class

/-!
# Headers of code

Code starts with the name of a diagram type. The name is all letters, so that neither a blank nor a
fence can stand before it, and code with a fence at its start has lost its header.
-/

namespace FlowDiagram.Code
open FlowDiagram.Text

/-- The text starts with a diagram type, in either case. -/
def StartsDiagram (t : Text) : Prop := ∃ name ∈ diagramTypes, name <+: toLowerAscii t

namespace StartsDiagram
variable {t u : Text}

theorem exists_header (h : StartsDiagram t) :
    ∃ x s, t = x ++ s ∧ toLowerAscii x ∈ diagramTypes ∧ x ≠ [] ∧ ∀ c ∈ x, isWord c = true := by
  have hletters : ∀ name ∈ diagramTypes, name ≠ [] ∧ ∀ c ∈ name, c.isAsciiLetter = true := by
    decide
  obtain ⟨name, hname, v, hv⟩ := h
  obtain ⟨x, s, rfl, rfl, -⟩ := List.map_eq_append_iff.1 hv.symm
  obtain ⟨hne, hall⟩ := hletters _ hname
  refine ⟨x, s, rfl, hname, mt (congrArg toLowerAscii) hne, ?_⟩
  intro c hc
  exact isWord_of_toLowerAscii (hall _ (List.mem_map_of_mem hc))

theorem exists_eq_cons (h : StartsDiagram t) : ∃ c s, t = c :: s ∧ isWord c = true := by
  obtain ⟨x, s, rfl, -, hne, hword⟩ := h.exists_header
  obtain ⟨c, x, rfl⟩ := List.exists_cons_of_ne_nil hne
  exact ⟨c, x ++ s, rfl, hword c (by simp)⟩

theorem of_isPrefix (h : StartsDiagram t) (htu : t <+: u) : StartsDiagram u := by
  obtain ⟨name, hname, hprefix⟩ := h
  exact ⟨name, hname, hprefix.trans (htu.map CodePoint.toLowerAscii)⟩

theorem not_fence (h : StartsDiagram t) : ¬ fence <+: t := by
  obtain ⟨c, s, rfl, hword⟩ := h.exists_eq_cons
  have hfence : fence = CodePoint.ofChar '\x60' :: Text.ofString "\x60\x60" := rfl
  rw [hfence, List.cons_prefix_cons]
  intro hhead
  exact ne_of_class hword (by decide) hhead.1.symm

end StartsDiagram

/-! ### A second fence -/

/-- Where no fence opens the text, its code starts where the text does. -/
theorem isPrefix_unfence {t : Text} (h : ¬ fence <+: trim t) : unfence t <+: trim t := by
  have hprefix : dropClosingFence (trim t) <+: trim t := isPrefix_dropClosingFence (trim t)
  have hstops : Stops isBlank (dropClosingFence (trim t)) :=
    Stops.of_isPrefix (trimmed_trim t).head hprefix
  rw [unfence, Scanner.strip_of_none (read_openingFence_eq_none_iff.2 h)]
  exact (isPrefix_trim hstops).trans hprefix

/-- Code that is judged without a fence need not be free of it as it stands. -/
theorem startsDiagram_trim_iff {t : Text} (h : StartsDiagram (unfence t)) :
    StartsDiagram (trim t) ↔ ¬ fence <+: trim t :=
  ⟨StartsDiagram.not_fence, fun hfence => h.of_isPrefix (isPrefix_unfence hfence)⟩

end FlowDiagram.Code
