import FlowDiagram.Proofs.Text.Split

/-!
# The first place of a piece

A text is cut at the first occurrence of a piece. So the piece must not stand any earlier, neither in
the part before it nor across the border; what comes behind it does not matter.
-/

namespace FlowDiagram.Text
variable {piece t before rest : Text}

theorem append_dropLast_isPrefix (before piece rest : Text) :
    before ++ piece.dropLast <+: before ++ piece ++ rest := by
  rw [List.append_assoc, List.prefix_append_right_inj]
  exact (List.dropLast_prefix piece).trans (List.prefix_append piece rest)

theorem cutAt?_append (h : ¬ piece <:+: before ++ piece.dropLast) (hne : piece ≠ []) :
    cutAt? piece (before ++ piece ++ rest) = some (before, rest) := by
  induction before with
  | nil =>
    obtain ⟨c, x, rfl⟩ := List.exists_cons_of_ne_nil hne
    have hstart : (c :: x).isPrefixOf (c :: (x ++ rest)) = true :=
      List.isPrefixOf_iff_prefix.2 (List.prefix_append (c :: x) rest)
    have hdrop : (c :: (x ++ rest)).drop (c :: x).length = rest := by
      rw [← List.cons_append, List.drop_left]
    rw [List.nil_append, List.cons_append, cutAt?, if_pos hstart, hdrop]
  | cons c b ih =>
    rw [List.cons_append, List.infix_cons_iff, not_or] at h
    -- A piece that stood at the start would end before the last character of the one that is there.
    have hstart : ¬ piece <+: c :: (b ++ piece ++ rest) := by
      intro hprefix
      refine h.1 (List.prefix_of_prefix_length_le hprefix ?_ ?_)
      · exact List.cons_prefix_cons.2 ⟨rfl, append_dropLast_isPrefix b piece rest⟩
      · rw [List.length_cons, List.length_append, List.length_dropLast]
        omega
    rw [List.cons_append, List.cons_append, cutAt?,
      if_neg (by rwa [List.isPrefixOf_iff_prefix]), ih h.2, Option.map_some]

theorem not_infix_of_cutAt? (hne : piece ≠ []) (h : cutAt? piece t = some (before, rest)) :
    ¬ piece <:+: before ++ piece.dropLast := by
  have hshort : ¬ piece <:+: piece.dropLast := fun hin => by
    have hlen := hin.length_le
    have hpos := List.length_pos_iff.2 hne
    rw [List.length_dropLast] at hlen
    omega
  induction t generalizing before with
  | nil => exact absurd h (by simp [cutAt?, hne])
  | cons c t ih =>
    unfold cutAt? at h
    split at h
    · obtain ⟨rfl, -⟩ := Prod.mk.inj (Option.some.inj h)
      exact hshort
    · rename_i hnot
      obtain ⟨⟨b, r⟩, hcut, hpair⟩ := Option.map_eq_some_iff.1 h
      obtain ⟨rfl, rfl⟩ := Prod.mk.inj hpair
      rw [List.cons_append, List.infix_cons_iff, not_or]
      refine ⟨fun hstart => hnot (List.isPrefixOf_iff_prefix.2 (hstart.trans ?_)), ih hcut⟩
      rw [eq_append_of_cutAt? hcut]
      exact List.cons_prefix_cons.2 ⟨rfl, append_dropLast_isPrefix b piece r⟩

theorem cutAt?_eq_some_iff (hne : piece ≠ []) :
    cutAt? piece t = some (before, rest) ↔
      t = before ++ piece ++ rest ∧ ¬ piece <:+: before ++ piece.dropLast := by
  constructor
  · exact fun h => ⟨eq_append_of_cutAt? h, not_infix_of_cutAt? hne h⟩
  · intro hform
    rw [hform.1]
    exact cutAt?_append hform.2 hne

end FlowDiagram.Text
