import FlowDiagram.Proofs.Code.Leftover

/-!
# Blocks that are taken out twice

A reply has a closed block exactly when two of its fences do not overlap. Where there are no two, at
most one fence is taken off, and none that is left can be taken off later. So what is found in a reply
is found again in itself.
-/

namespace FlowDiagram.Code
open FlowDiagram.Text FlowDiagram.Text.Scanner

/-! ### Texts without a fence -/

theorem unfence_of_not_fence {t : Text} (h : ¬ fence <:+: t) : unfence t = trim t := by
  have htrim : ¬ fence <:+: trim t := fun hin => h (hin.trans (infix_trim t))
  have hopen : openingFence.read (trim t) = none :=
    read_openingFence_eq_none_iff.2 fun hprefix => htrim hprefix.isInfix
  rw [unfence, strip_of_none hopen,
    dropClosingFence_of_not_suffix fun hsuffix => htrim hsuffix.isInfix,
    trim_eq_self (trimmed_trim t)]

theorem firstBlock_of_not_fence {t : Text} (h : ¬ fence <:+: t) : firstBlock t = trim t := by
  have hnone : closedBlock? t = none := by
    rw [closedBlock?, (cutAt?_eq_none_iff fence t).2 h]
    rfl
  rw [firstBlock, hnone, Option.getD_none, unfence_of_not_fence h]

/-! ### Tag lines -/

theorem exists_of_read_tagLine {t lexeme rest : Text} (h : tagLine.read t = some (lexeme, rest)) :
    ∃ tag gap, lexeme = tag ++ gap ++ "\n" ∧ t = lexeme ++ rest ∧
      (∀ c ∈ tag, isTagChar c = true) ∧ ∀ c ∈ gap, isGap c = true := by
  have happend := tagLine.append_of_read h
  simp only [tagLine, read_seq_eq_some_iff, read_atLeast_eq_some_iff, read_char_eq_some_iff] at h
  obtain ⟨_, _, _, ⟨tag, _, gap, ⟨-, htag, -, -⟩, ⟨-, hgap, -, -⟩, rfl⟩, ⟨rfl, -⟩, rfl⟩ := h
  exact ⟨tag, gap, rfl, happend.symm, htag, hgap⟩

/-- A tag line holds no backtick, so that all fences lie behind it. -/
theorem exists_strip_tagLine (t : Text) :
    ∃ l, t = l ++ tagLine.strip t ∧ CodePoint.ofChar '\x60' ∉ l := by
  cases hread : tagLine.read t with
  | none => exact ⟨[], by rw [strip_of_none hread]; rfl, by simp⟩
  | some result =>
    obtain ⟨tag, gap, hlexeme, ht, htag, hgap⟩ := exists_of_read_tagLine hread
    refine ⟨result.1, by rw [strip_of_read hread]; exact ht, ?_⟩
    rw [hlexeme]
    intro hmem
    simp only [List.mem_append] at hmem
    rcases hmem with (hmem | hmem) | hmem
    · exact absurd (htag _ hmem) (by decide)
    · exact absurd (hgap _ hmem) (by decide)
    · exact absurd hmem (by decide)

/-! ### Closed blocks -/

/-- Two fences that do not overlap. -/
def HasBlock (t : Text) : Prop := ∃ a b c, t = a ++ fence ++ b ++ fence ++ c

theorem HasBlock.of_infix {s t : Text} (h : HasBlock s) (hst : s <:+: t) : HasBlock t := by
  obtain ⟨a, b, c, rfl⟩ := h
  obtain ⟨l, r, rfl⟩ := hst
  exact ⟨l ++ a, b, c ++ r, by simp⟩

/-- The first fence of a text is the first of any two. -/
theorem fence_infix_of_hasBlock {t before inside : Text} (h : HasBlock t)
    (hcut : cutAt? fence t = some (before, inside)) : fence <:+: inside := by
  obtain ⟨a, b, c, ht⟩ := h
  obtain ⟨hform, hfirst⟩ := (cutAt?_eq_some_iff (by decide)).1 hcut
  have hthree : fence.length = 3 := rfl
  have hpiece : a ++ fence <+: t := ⟨b ++ fence ++ c, by rw [ht]; simp⟩
  have hle : before.length ≤ a.length := by
    by_contra hlt
    have hshort : before ++ fence.dropLast <+: t := hform ▸ append_dropLast_isPrefix ..
    have hbefore : a ++ fence <+: before ++ fence.dropLast := by
      refine List.prefix_of_prefix_length_le hpiece hshort ?_
      rw [List.length_append, List.length_append, List.length_dropLast, hthree]
      omega
    exact hfirst ((List.suffix_append a fence).isInfix.trans hbefore.isInfix)
  obtain ⟨d, hd⟩ : before ++ fence <+: a ++ fence := by
    refine List.prefix_of_prefix_length_le ⟨inside, hform.symm⟩ hpiece ?_
    rw [List.length_append, List.length_append]
    omega
  have hinside : inside = d ++ b ++ fence ++ c := by
    rw [hform, ← hd] at ht
    simpa using ht
  exact ⟨d ++ b, c, hinside.symm⟩

theorem closedBlock?_eq_none_iff {t : Text} : closedBlock? t = none ↔ ¬ HasBlock t := by
  unfold closedBlock?
  cases hcut : cutAt? fence t with
  | none =>
    refine iff_of_true rfl fun hblock => ?_
    obtain ⟨a, b, c, rfl⟩ := hblock
    exact (cutAt?_eq_none_iff _ _).1 hcut ⟨a, b ++ fence ++ c, by simp⟩
  | some parts =>
    obtain ⟨before, inside⟩ := parts
    obtain ⟨l, hl, hbacktick⟩ := exists_strip_tagLine inside
    cases hclose : cutAt? fence (tagLine.strip inside) with
    | none =>
      refine iff_of_true (by simp [hclose]) fun hblock => ?_
      have hin := fence_infix_of_hasBlock hblock hcut
      rw [hl] at hin
      exact (cutAt?_eq_none_iff _ _).1 hclose (infix_of_infix_append hin hbacktick)
    | some block =>
      refine iff_of_false (by simp [hclose]) (not_not.2 ⟨before, l ++ block.1, block.2, ?_⟩)
      rw [eq_append_of_cutAt? hcut, hl, eq_append_of_cutAt? hclose]
      simp

/-! ### Taking out twice -/

/-- Where no two fences are, one that is left was at neither end of the text. -/
theorem unfence_of_fence_left {t : Text} (hblock : ¬ HasBlock t) (hfence : fence <:+: unfence t) :
    unfence t = trim t := by
  have hin := infix_trim t
  have hdropped : fence <:+: dropClosingFence (openingFence.strip (trim t)) :=
    hfence.trans (infix_trim _)
  have hopen : openingFence.read (trim t) = none := by
    cases hread : openingFence.read (trim t) with
    | none => rfl
    | some result =>
      obtain ⟨tag, gap, feed, hlexeme, htext, -⟩ := read_openingFence_eq_some_iff.1 hread
      rw [strip_of_read hread] at hdropped
      obtain ⟨a, b, hab⟩ := hdropped.trans (isPrefix_dropClosingFence _).isInfix
      refine absurd (HasBlock.of_infix ⟨[], tag ++ gap ++ feed ++ a, b, ?_⟩ hin) hblock
      rw [htext, hlexeme, ← hab]
      simp
  rw [strip_of_none hopen] at hdropped
  have hclose : dropClosingFence (trim t) = trim t := by
    obtain ⟨a, b, hab⟩ := hdropped
    rcases dropClosingFence_cases (trim t) with ⟨-, heq⟩ | heq | ⟨heq, -⟩
    · exact heq
    · refine absurd (HasBlock.of_infix ⟨a, b ++ "\n", [], ?_⟩ hin) hblock
      rw [heq, ← hab]
      simp
    · refine absurd (HasBlock.of_infix ⟨a, b, [], ?_⟩ hin) hblock
      rw [heq, ← hab]
      simp
  rw [unfence, strip_of_none hopen, hclose, trim_eq_self (trimmed_trim t)]

theorem unfence_unfence {t : Text} (h : ¬ HasBlock t) : unfence (unfence t) = unfence t := by
  by_cases hfence : fence <:+: unfence t
  · have htext := unfence_of_fence_left h hfence
    rw [htext, unfence, trim_eq_self (trimmed_trim t)]
    exact htext
  · rw [unfence_of_not_fence hfence]
    exact trim_eq_self (trimmed_trim _)

theorem firstBlock_firstBlock (reply : Text) :
    firstBlock (firstBlock reply) = firstBlock reply := by
  cases hblock : closedBlock? reply with
  | some code =>
    have hcode : firstBlock reply = code := by rw [firstBlock, hblock, Option.getD_some]
    rw [hcode, firstBlock_of_not_fence (not_fence_infix_of_closedBlock? hblock)]
    obtain ⟨block, rfl, -⟩ := exists_of_closedBlock? hblock
    exact trim_eq_self (trimmed_trim block)
  | none =>
    have hopen : ¬ HasBlock reply := closedBlock?_eq_none_iff.1 hblock
    have hcode : firstBlock reply = unfence reply := by rw [firstBlock, hblock, Option.getD_none]
    have hnone : closedBlock? (unfence reply) = none :=
      closedBlock?_eq_none_iff.2 fun h => hopen (h.of_infix (infix_unfence reply))
    rw [hcode, firstBlock, hnone, Option.getD_none, unfence_unfence hopen]

end FlowDiagram.Code
