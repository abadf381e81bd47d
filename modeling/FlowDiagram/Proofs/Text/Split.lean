import FlowDiagram.Text.Basic
import Mathlib.Data.List.Infix

/-!
# Places in a text

A text that is put together in two ways can be cut at a character: where one part does not have it,
the character lies in the other.
-/

namespace FlowDiagram.Text
variable {a b t r : Text} {c : CodePoint}

theorem exists_of_notMem_end (h : a ++ c :: b = t ++ r) (hc : c ∉ r) :
    ∃ s, t = a ++ c :: s ∧ b = s ++ r := by
  rcases List.append_eq_append_iff.1 h with ⟨s, rfl, hs⟩ | ⟨s, rfl, hs⟩
  · cases s with
    | nil =>
      rw [List.nil_append] at hs
      exact absurd (by rw [← hs]; simp) hc
    | cons d s =>
      obtain ⟨rfl, rfl⟩ := List.cons.inj hs
      exact ⟨s, rfl, rfl⟩
  · exact absurd (by rw [hs]; simp) hc

theorem exists_of_notMem_start (h : a ++ c :: b = t ++ r) (hc : c ∉ t) :
    ∃ s, a = t ++ s ∧ r = s ++ c :: b := by
  rcases List.append_eq_append_iff.1 h with ⟨s, rfl, hs⟩ | ⟨s, rfl, hs⟩
  · cases s with
    | nil => exact ⟨[], by simp, by simpa using hs.symm⟩
    | cons d s =>
      obtain ⟨rfl, rfl⟩ := List.cons.inj hs
      exact absurd (by simp) hc
  · exact ⟨s, rfl, hs⟩

/-- An end that starts with a character lies behind every piece without it. -/
theorem suffix_of_suffix_append (h : c :: b <:+ t ++ r) (hc : c ∉ t) : c :: b <:+ r := by
  obtain ⟨a, ha⟩ := h
  obtain ⟨s, -, rfl⟩ := exists_of_notMem_start ha hc
  exact List.suffix_append _ _

theorem infix_of_infix_append {x : Text} (h : c :: x <:+: t ++ r) (hc : c ∉ t) : c :: x <:+: r := by
  obtain ⟨u, hu, hsuffix⟩ := List.infix_iff_prefix_suffix.1 h
  obtain ⟨y, rfl⟩ := hu
  exact (List.prefix_append _ y).isInfix.trans (suffix_of_suffix_append hsuffix hc).isInfix

/-- Where a character comes only at the end, so does every piece that it closes. -/
theorem infix_concat_iff {x : Text} (hc : c ∉ t) : x ++ [c] <:+: t ++ [c] ↔ x <:+ t := by
  constructor
  · intro h
    obtain ⟨l, r, heq⟩ := h
    have hcut : (l ++ x) ++ c :: r = t ++ [c] := by
      rw [← heq]
      simp
    obtain ⟨k, hk, hend⟩ := exists_of_notMem_start hcut hc
    have hlen := congrArg List.length hend
    simp only [List.length_append, List.length_cons, List.length_nil] at hlen
    obtain rfl : k = [] := List.length_eq_zero_iff.1 (by omega)
    exact ⟨l, by rw [hk, List.append_nil]⟩
  · intro h
    obtain ⟨l, rfl⟩ := h
    exact ⟨l, [], by simp⟩

/-- A piece without the separator that stands in two parts around it stands in one of them. -/
theorem infix_or_infix_of_append_cons {x s t : Text} (h : x <:+: s ++ c :: t) (hc : c ∉ x) :
    x <:+: s ∨ x <:+: t := by
  rcases List.infix_append_iff.1 h with hs | ht | ⟨a, b, rfl, ha, hb⟩
  · exact Or.inl hs
  · rcases List.infix_cons_iff.1 ht with hp | ht
    · rcases List.prefix_cons_iff.1 hp with rfl | ⟨u, rfl, -⟩
      · exact Or.inl List.nil_infix
      · exact absurd (List.mem_cons_self ..) hc
    · exact Or.inr ht
  · rcases List.prefix_cons_iff.1 hb with rfl | ⟨u, rfl, -⟩
    · rw [List.append_nil]
      exact Or.inl ha.isInfix
    · exact absurd (by simp) hc

end FlowDiagram.Text
