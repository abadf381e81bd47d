import FlowDiagram.Graph.Render
import FlowDiagram.Proofs.Text.Trim
import FlowDiagram.Settings

/-!
# What a written label holds

A label is plain when it holds no structural character, no angle bracket, no blank but the space,
and no blank at its ends. Sanitizing gives plain labels if the fallback is one. Shortening keeps all
of this but one thing: a label cut to at most three characters may end in a space.
-/

namespace FlowDiagram.Label
open FlowDiagram.Text

/-- The characters that a label may have in code. -/
def isLabelChar (c : CodePoint) : Bool :=
  !isStructural c && c != '<' && c != '>' && (!isBlank c || c == ' ')

structure IsPlain (t : Text) : Prop where
  ne_nil : t ≠ []
  chars : ∀ c ∈ t, isLabelChar c = true
  trimmed : Trimmed t

/-- What shortening leaves of a plain label. -/
structure IsWritten (t : Text) : Prop where
  ne_nil : t ≠ []
  chars : ∀ c ∈ t, isLabelChar c = true
  head : ∀ c ∈ t.head?, isBlank c = false
  last : ∀ c ∈ t.getLast?, isBlank c = true → t.length ≤ 3

/-! ### Characters -/

theorem eq_space_of_isBlank {c : CodePoint} (hc : isLabelChar c = true)
    (hb : isBlank c = true) : c = ' ' := by
  simpa [isLabelChar, hb] using (Bool.and_eq_true_iff.1 hc).2

theorem mem_collapse {c : CodePoint} {t : Text} (h : c ∈ collapse t) :
    c = ' ' ∨ (c ∈ t ∧ isBlank c = false) := by
  induction t with
  | nil => simp [collapse] at h
  | cons d t ih =>
    have htail : c ∈ collapse t → c = ' ' ∨ (c ∈ d :: t ∧ isBlank c = false) := by
      intro hc
      exact (ih hc).imp_right fun hmem => ⟨List.mem_cons_of_mem _ hmem.1, hmem.2⟩
    unfold collapse at h
    split at h
    · split at h
      · exact htail h
      · rcases List.mem_cons.1 h with rfl | h
        · exact Or.inl rfl
        · exact htail h
    · rename_i hd
      rcases List.mem_cons.1 h with rfl | h
      · exact Or.inr ⟨by simp, by simpa using hd⟩
      · exact htail h

theorem mem_of_mem_trim {c : CodePoint} {t : Text} (h : c ∈ trim t) : c ∈ t :=
  (infix_trim t).subset h

theorem ne_angle_of_mem_withoutAngles {c : CodePoint} {t : Text} (h : c ∈ withoutAngles t) :
    c ≠ '<' ∧ c ≠ '>' := by
  obtain ⟨d, -, rfl⟩ := List.mem_map.1 h
  by_cases hd : d = '<' ∨ d = '>'
  · have hspace : (d == CodePoint.ofChar '<' || d == CodePoint.ofChar '>') = true := by
      simpa using hd
    simp only [hspace, if_true]
    decide
  · have hother : (d == CodePoint.ofChar '<' || d == CodePoint.ofChar '>') = false := by
      simpa using hd
    simp only [hother, Bool.false_eq_true, if_false]
    simpa using hd

/-! ### Sanitizing -/

/-- What is left of a raw text as a label. Where nothing is, the fallback comes in. -/
def remainder (raw : Text) : Text := trim (collapse (raw.filter fun c => !isStructural c))

theorem sanitize_eq (fallback raw : Text) :
    sanitize fallback raw = if remainder raw = [] then fallback else remainder raw := by
  by_cases h : remainder raw = []
  · rw [if_pos h]
    exact if_pos (List.isEmpty_iff.2 h)
  · rw [if_neg h]
    exact if_neg (mt List.isEmpty_iff.1 h)

theorem mem_remainder {c : CodePoint} {raw : Text} (h : c ∈ remainder raw) :
    c = ' ' ∨ (c ∈ raw ∧ isStructural c = false ∧ isBlank c = false) := by
  rcases mem_collapse (mem_of_mem_trim h) with hspace | ⟨hmem, hblank⟩
  · exact Or.inl hspace
  · obtain ⟨hraw, hstructural⟩ := List.mem_filter.1 hmem
    exact Or.inr ⟨hraw, by simpa using hstructural, hblank⟩

theorem isPlain_sanitize {fallback : Text} (hf : IsPlain fallback) (raw : Text) :
    IsPlain (sanitize fallback (withoutAngles raw)) := by
  rw [sanitize_eq]
  split
  · exact hf
  · rename_i hne
    refine ⟨hne, ?_, trimmed_trim _⟩
    intro c hc
    rcases mem_remainder hc with rfl | ⟨hraw, hstructural, hblank⟩
    · decide
    · obtain ⟨hlt, hgt⟩ := ne_angle_of_mem_withoutAngles hraw
      simp [isLabelChar, hstructural, hlt, hgt, hblank]

/-! ### Shortening -/

theorem IsPlain.isWritten {t : Text} (h : IsPlain t) : IsWritten t := by
  refine ⟨h.ne_nil, h.chars, h.trimmed.head, ?_⟩
  intro c hc hb
  rw [h.trimmed.last c hc] at hb
  exact absurd hb (by decide)

theorem head?_take_of_pos {t : Text} {n : Nat} (hn : 0 < n) : (t.take n).head? = t.head? := by
  cases t with
  | nil => simp
  | cons c t =>
    obtain ⟨m, rfl⟩ := Nat.exists_eq_succ_of_ne_zero (by omega : n ≠ 0)
    rfl

/-- A label cut to at most three characters, of which the last may be a space. -/
theorem IsPlain.isWritten_take {t : Text} (h : IsPlain t) {n : Nat} (hn : 0 < n) (hle : n ≤ 3) :
    IsWritten (t.take n) := by
  have hhead := head?_take_of_pos (t := t) hn
  refine ⟨?_, fun c hc => h.chars c (List.mem_of_mem_take hc), ?_, ?_⟩
  · intro hnil
    rw [hnil] at hhead
    exact h.ne_nil (List.head?_eq_none_iff.1 hhead.symm)
  · intro c hc
    rw [hhead] at hc
    exact h.trimmed.head c hc
  · intro c _ _
    rw [List.length_take]
    omega

/-- A cut label with an ellipsis, which is put right behind its last character that is not blank. -/
theorem IsPlain.dotted {t : Text} (h : IsPlain t) {n : Nat} (hn : 0 < n) :
    IsPlain (trimRight (t.take n) ++ ellipsis) := by
  have hhead : ∀ c ∈ (t.take n).head?, isBlank c = false := by
    intro c hc
    rw [head?_take_of_pos hn] at hc
    exact h.trimmed.head c hc
  have hdots : ∀ c ∈ ellipsis, isLabelChar c = true := by decide
  obtain ⟨c, u, rfl⟩ := List.exists_cons_of_ne_nil h.ne_nil
  refine ⟨by simp [ellipsis, Text.ofString], ?_, ?_, ?_⟩
  · intro d hd
    rcases List.mem_append.1 hd with hd | hd
    · obtain ⟨r, -, heq, -⟩ := exists_trimRight ((c :: u).take n)
      have hmem : d ∈ (c :: u).take n := by
        rw [heq]
        exact List.mem_append_left r hd
      exact h.chars d (List.mem_of_mem_take hmem)
    · exact hdots d hd
  · intro d hd
    rw [List.head?_append, head?_trimRight hhead, head?_take_of_pos hn] at hd
    exact h.trimmed.head d hd
  · intro d hd
    have hlast : ellipsis.getLast? = some (CodePoint.ofChar '.') := rfl
    rw [List.getLast?_append, hlast] at hd
    obtain rfl : CodePoint.ofChar '.' = d := by simpa using hd
    decide

theorem IsPlain.shorten {t : Text} (h : IsPlain t) (limit : Int) :
    IsWritten (shorten limit t) := by
  unfold Label.shorten
  split
  · exact h.isWritten
  · rename_i hlimit
    rw [not_or] at hlimit
    split
    · exact h.isWritten_take (by omega) (by omega)
    · exact (h.dotted (by omega)).isWritten

/-! ### Labels in code -/

theorem isWritten_renderLabel {fallback : Text} (hf : IsPlain fallback) (limit : Int)
    (raw : Option Text) : IsWritten (renderLabel fallback limit raw) :=
  (isPlain_sanitize hf _).shorten limit

theorem isPlain_standard : IsPlain Settings.standard.fallbackLabel :=
  ⟨by decide, by decide, by decide, by decide⟩

end FlowDiagram.Label
