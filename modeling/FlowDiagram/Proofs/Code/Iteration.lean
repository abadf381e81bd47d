import FlowDiagram.Proofs.Code.Steps
import Mathlib.Logic.Function.Iterate
import Mathlib.Order.Basic

/-!
# Cleaning again and again

Only an arrow that gets its second dash makes a text longer, and it does so by one character. So the
length together with the number of heads that still lack two dashes never grows, and where a step
keeps it and changes the text all the same, such a head or a tab has gone. Cleaning over and over
therefore comes to an end, and no text on the way is much longer than the first.
-/

namespace FlowDiagram.Code
open FlowDiagram.Text FlowDiagram.Text.Scanner

/-! ### Loose heads -/

/-- The head behind a part is loose unless two dashes end the part. -/
def isLoose (part : Text) : Bool := !(Text.ofString "--").isSuffixOf part

/-- The number of heads that do not stand right behind two dashes. -/
def looseHeads (t : Text) : Nat := (t.splitOn (CodePoint.ofChar '>')).dropLast.countP isLoose

/-- What a part adds to the number of loose heads. -/
def looseness (part : Text) : Nat := if isLoose part then 1 else 0

section
variable {a b t v : Text} {c : CodePoint}

theorem looseness_le_one (part : Text) : looseness part ≤ 1 := by
  unfold looseness
  split <;> omega

theorem isLoose_iff : isLoose a = true ↔ ¬ Text.ofString "--" <:+ a := by
  rw [isLoose, Bool.not_eq_true', ← List.isSuffixOf_iff_suffix, Bool.not_eq_true]

theorem looseness_append_dashes (v : Text) : looseness (v ++ Text.ofString "--") = 0 := by
  rw [looseness, if_neg fun h => isLoose_iff.1 h (List.suffix_append v _)]

theorem looseness_eq_one (h : ∀ s, a ≠ s ++ Text.ofString "-" ++ Text.ofString "-") :
    looseness a = 1 := by
  refine if_pos (isLoose_iff.2 ?_)
  rintro ⟨s, rfl⟩
  exact h s (by simp [Text.ofString])

theorem looseness_append_gap {gap : Text} (hgap : IsGapRun gap) (v : Text) :
    looseness (v ++ gap) = 1 :=
  looseness_eq_one fun s => hgap.append_ne v (s ++ Text.ofString "-")

theorem looseness_append_gap_dash {gap : Text} (hgap : IsGapRun gap) (v : Text) :
    looseness (v ++ gap ++ Text.ofString "-") = 1 :=
  looseness_eq_one fun s h => hgap.append_ne v s (List.append_cancel_right h)

theorem looseHeads_of_notMem (h : CodePoint.ofChar '>' ∉ t) : looseHeads t = 0 := by
  simp [looseHeads, List.splitOn_eq_singleton h]

theorem looseHeads_part (ha : CodePoint.ofChar '>' ∉ a) (b : Text) :
    looseHeads (a ++ CodePoint.ofChar '>' :: b) = looseness a + looseHeads b := by
  have hne : b.splitOn (CodePoint.ofChar '>') ≠ [] := by simp
  rw [looseHeads, List.splitOn_append_cons_self_of_not_mem ha, List.dropLast_cons_of_ne_nil hne,
    List.countP_cons, Nat.add_comm, looseness, looseHeads]

theorem looseHeads_le_count (t : Text) : looseHeads t ≤ t.count (CodePoint.ofChar '>') := by
  induction t using head_induction (CodePoint.ofChar '>') with
  | free t ht =>
    rw [looseHeads_of_notMem ht]
    exact Nat.zero_le _
  | part a b ha ih =>
    have hone := looseness_le_one a
    rw [looseHeads_part ha, List.count_append, List.count_cons_self]
    omega

/-- Of what stands before a text only the part behind its last head matters. -/
theorem exists_looseHeads_append (v : Text) :
    ∃ k l, CodePoint.ofChar '>' ∉ l ∧ ∀ t, looseHeads (v ++ t) = k + looseHeads (l ++ t) := by
  induction v using head_induction (CodePoint.ofChar '>') with
  | free v hv => exact ⟨0, v, hv, fun t => (Nat.zero_add _).symm⟩
  | part a b ha ih =>
    obtain ⟨k, l, hl, hrest⟩ := ih
    refine ⟨looseness a + k, l, hl, fun t => ?_⟩
    rw [List.append_assoc, List.cons_append, looseHeads_part ha, hrest, Nat.add_assoc]

theorem looseness_append_cons (hdash : c ≠ '-') (v a : Text) :
    looseness (v ++ c :: a) = looseness a := by
  have hc : c ∉ Text.ofString "--" := by simpa [Text.ofString] using hdash
  have hiff : Text.ofString "--" <:+ v ++ c :: a ↔ Text.ofString "--" <:+ a := by
    constructor
    · intro h
      obtain ⟨s, hs⟩ := h
      obtain ⟨u, -, rfl⟩ := exists_of_notMem_end hs.symm hc
      exact List.suffix_append u _
    · exact fun h => h.trans ((List.suffix_cons c a).trans (List.suffix_append v _))
  simp only [looseness, isLoose_iff, hiff]

/-- A character that is neither a dash nor a head keeps the heads around it apart. -/
theorem looseHeads_append_cons (hdash : c ≠ '-') (hhead : c ≠ '>') (v t : Text) :
    looseHeads (v ++ c :: t) = looseHeads v + looseHeads t := by
  obtain ⟨k, l, hl, happend⟩ := exists_looseHeads_append v
  have hbefore : looseHeads v = k := by
    have hnil := happend []
    rwa [List.append_nil, List.append_nil, looseHeads_of_notMem hl] at hnil
  rw [happend, hbefore, Nat.add_left_cancel_iff]
  have hfree : ∀ u : Text, CodePoint.ofChar '>' ∉ u → CodePoint.ofChar '>' ∉ l ++ c :: u := by
    intro u hu
    simp [hl, hhead.symm, hu]
  induction t using head_induction (CodePoint.ofChar '>') with
  | free t ht => rw [looseHeads_of_notMem (hfree t ht), looseHeads_of_notMem ht]
  | part a b ha _ =>
    have hpart : l ++ c :: (a ++ CodePoint.ofChar '>' :: b) =
        (l ++ c :: a) ++ CodePoint.ofChar '>' :: b := by simp
    rw [hpart, looseHeads_part (hfree a ha), looseHeads_part ha, looseness_append_cons hdash]

theorem looseHeads_le_append_head (a b : Text) :
    looseHeads b ≤ looseHeads (a ++ CodePoint.ofChar '>' :: b) := by
  obtain ⟨k, l, hl, happend⟩ := exists_looseHeads_append a
  rw [happend, looseHeads_part hl]
  omega

end

/-! ### The weight of a text -/

/-- The length with one more for each loose head, and the number of loose heads and tabs. -/
def weight (t : Text) : Nat × Nat :=
  (t.length + looseHeads t, looseHeads t + t.count (CodePoint.ofChar '\t'))

/-- What the body of an arrow behind a text weighs together with its head. -/
def bodyWeight (l y : Text) : Nat × Nat :=
  (y.length + looseness (l ++ y), looseness (l ++ y) + y.count (CodePoint.ofChar '\t'))

/-- An arrow weighs less in any text if its body weighs less behind any text. -/
theorem weight_lt_of_body {u y : Text} (hu : CodePoint.ofChar '>' ∉ u)
    (hy : CodePoint.ofChar '>' ∉ y) (h : ∀ l, bodyWeight l y < bodyWeight l u) (v s : Text) :
    weight (v ++ (y ++ [CodePoint.ofChar '>']) ++ s) <
      weight (v ++ (u ++ [CodePoint.ofChar '>']) ++ s) := by
  obtain ⟨k, l, hl, happend⟩ := exists_looseHeads_append v
  have hpart : ∀ z : Text, CodePoint.ofChar '>' ∉ z →
      looseHeads (v ++ (z ++ [CodePoint.ofChar '>']) ++ s) =
        k + (looseness (l ++ z) + looseHeads s) := by
    intro z hz
    have hform : l ++ ((z ++ [CodePoint.ofChar '>']) ++ s) =
        (l ++ z) ++ CodePoint.ofChar '>' :: s := by simp
    rw [List.append_assoc, happend, hform, looseHeads_part (by simp [hl, hz])]
  have hlt := h l
  rw [bodyWeight, bodyWeight, Prod.mk_lt_mk] at hlt
  rw [weight, weight, Prod.mk_lt_mk, hpart y hy, hpart u hu]
  simp only [List.length_append, List.count_append]
  omega

/-- The step leaves a text as it is or makes it lighter. -/
def Lightens (step : Text → Text) : Prop := ∀ t, step t = t ∨ weight (step t) < weight t

theorem Lightens.comp {f g : Text → Text} (hf : Lightens f) (hg : Lightens g) :
    Lightens fun t => f (g t) := by
  intro t
  rcases hg t with heq | hlt
  · simpa only [heq] using hf t
  · rcases hf (g t) with heq | hlt'
    · exact Or.inr (by simpa only [heq] using hlt)
    · exact Or.inr (hlt'.trans hlt)

theorem Lightens.of_steady {r : Replacer} (hr : Steady r)
    (hw : ∀ {t lexeme x}, r t = some (lexeme, x) →
      x = lexeme ∨ ∀ v s, weight (v ++ x ++ s) < weight (v ++ lexeme ++ s)) :
    Lightens (substitute r) := fun t =>
  (hr.substitute_eq_self_or_lt hw t).imp_right fun h => h []

/-! ### The steps -/

theorem lightens_breakLines : Lightens breakLines := by
  refine .of_steady (steady_breakTag "\n") fun h => Or.inr fun v s => ?_
  obtain ⟨rfl, rest, hread⟩ := replaceBy_eq_some_iff.1 h
  obtain ⟨b, r, blanks, slash, -, -, -, -, rfl, -⟩ := exists_of_read_breakTag hread
  have htag : v ++ CodePoint.ofChar '<' :: b :: r :: (blanks ++ slash ++ Text.ofString ">") ++ s =
      v ++ CodePoint.ofChar '<' :: (b :: r :: (blanks ++ slash) ++ CodePoint.ofChar '>' :: s) := by
    simp [Text.ofString]
  have hline : v ++ Text.ofString "\n" ++ s = v ++ CodePoint.ofChar '\n' :: s := by
    simp [Text.ofString]
  have hheads := looseHeads_le_append_head (b :: r :: (blanks ++ slash)) s
  rw [htag, hline, weight, weight, Prod.mk_lt_mk, looseHeads_append_cons (by decide) (by decide),
    looseHeads_append_cons (by decide) (by decide)]
  simp only [List.length_append, List.length_cons, List.count_append, List.count_cons, beq_iff_eq,
    CodePoint.ofChar_inj, Char.reduceEq, if_false]
  omega

theorem lightens_splitLongArrow : Lightens (substitute (splitLongArrow.replaceBy "-->")) := by
  refine .of_steady headed_splitLongArrow.toSteady fun h => Or.inr ?_
  obtain ⟨rfl, rest, hread⟩ := replaceBy_eq_some_iff.1 h
  obtain ⟨gap, hgap, rfl, -⟩ := read_splitLongArrow_eq_some_iff.1 hread
  have hpos := List.length_pos_iff.2 hgap.ne_nil
  have hbody := weight_lt_of_body (u := Text.ofString "--" ++ gap) (y := "--")
    (by simp [hgap.head_notMem, Text.ofString]) (by decide) fun l => by
      rw [bodyWeight, bodyWeight, Prod.mk_lt_mk, looseness_append_dashes, ← List.append_assoc,
        looseness_append_gap hgap]
      simp only [List.length_append, List.count_append]
      omega
  exact hbody

theorem lightens_splitShortArrow : Lightens (substitute (splitShortArrow.replaceBy "->")) := by
  refine .of_steady headed_splitShortArrow.toSteady fun h => Or.inr ?_
  obtain ⟨rfl, rest, hread⟩ := replaceBy_eq_some_iff.1 h
  obtain ⟨gap, hgap, rfl, -⟩ := read_splitShortArrow_eq_some_iff.1 hread
  have hpos := List.length_pos_iff.2 hgap.ne_nil
  have hbody := weight_lt_of_body (u := Text.ofString "-" ++ gap ++ Text.ofString "-") (y := "-")
    (by simp [hgap.head_notMem, Text.ofString]) (by decide) fun l => by
      have hone := looseness_le_one (l ++ Text.ofString "-")
      have hgapDash : looseness (l ++ (Text.ofString "-" ++ gap ++ Text.ofString "-")) = 1 := by
        rw [← List.append_assoc, ← List.append_assoc, looseness_append_gap_dash hgap]
      rw [bodyWeight, bodyWeight, Prod.mk_lt_mk, hgapDash]
      simp only [List.length_append, List.count_append]
      omega
  intro v s
  simpa [Text.ofString] using hbody v s

/-! ### Labelled arrows -/

/-- A gap of one character that is no tab is a space. -/
theorem IsGapRun.eq_space {gap : Text} (h : IsGapRun gap) (hlen : gap.length ≤ 1)
    (htab : gap.count (CodePoint.ofChar '\t') = 0) : gap = Text.ofString " " := by
  obtain ⟨c, rest, rfl⟩ := List.exists_cons_of_ne_nil h.ne_nil
  obtain rfl : rest = [] := List.length_eq_zero_iff.1 (by simpa using hlen)
  have hgap := h.chars c (by simp)
  simp only [isGap, Bool.or_eq_true, beq_iff_eq] at hgap
  rcases hgap with rfl | rfl
  · rfl
  · simp at htab

namespace LabelledArrow
variable (a : LabelledArrow)

theorem length_body :
    a.body.length = a.opening.length + a.label.length + a.closing.gap.length +
      a.closing.dash.length + a.closing.inner.length + 3 := by
  simp only [body, Closing.body, Text.ofString, List.length_append, List.length_cons]
  simp
  omega

theorem count_body :
    a.body.count (CodePoint.ofChar '\t') =
      a.opening.count (CodePoint.ofChar '\t') + a.label.count (CodePoint.ofChar '\t') +
        a.closing.gap.count (CodePoint.ofChar '\t') +
        a.closing.inner.count (CodePoint.ofChar '\t') := by
  have hdash : a.closing.dash.count (CodePoint.ofChar '\t') = 0 := by
    rcases a.closing.dash_eq with h | h <;> rw [h] <;> decide
  simp only [body, Closing.body, Text.ofString, List.count_append, List.count_cons, hdash]
  simp
  omega

/-- The head is loose unless it stands right behind two dashes. -/
theorem looseness_append_body (l : Text)
    (h : ¬ (a.closing.dash = Text.ofString "-" ∧ a.closing.inner = [])) :
    looseness (l ++ a.body) = 1 := by
  by_cases hinner : a.closing.inner = []
  · have hdash : a.closing.dash = [] := a.closing.dash_eq.resolve_right fun hd => h ⟨hd, hinner⟩
    have hform : l ++ a.body = (l ++ (Text.ofString "--" ++ a.opening ++ a.label)) ++
        a.closing.gap ++ Text.ofString "-" := by
      simp [body, Closing.body, hdash, hinner, Text.ofString]
    rw [hform, looseness_append_gap_dash a.closing.isGapRun]
  · have hform : l ++ a.body = (l ++ (Text.ofString "--" ++ a.opening ++ a.label ++ a.closing.gap ++
        a.closing.dash ++ Text.ofString "-")) ++ a.closing.inner := by
      simp [body, Closing.body, Text.ofString]
    rw [hform, looseness_append_gap ⟨hinner, a.closing.inner_chars⟩]

theorem looseness_append_neat (l : Text) : looseness (l ++ a.neat.body) = 0 := by
  have hform : l ++ a.neat.body =
      (l ++ (Text.ofString "-- " ++ a.neat.label ++ Text.ofString " ")) ++ Text.ofString "--" := by
    simp [body, neat, Closing.body, Closing.written, Text.ofString]
  rw [hform, looseness_append_dashes]

theorem length_neat : a.neat.body.length = (trim a.label).length + 6 := by
  rw [length_body, label_neat]
  simp [neat, Closing.written, Text.ofString]
  omega

theorem count_neat :
    a.neat.body.count (CodePoint.ofChar '\t') = (trim a.label).count (CodePoint.ofChar '\t') := by
  have hspace : (Text.ofString " ").count (CodePoint.ofChar '\t') = 0 := by decide
  rw [count_body, label_neat]
  simp [neat, Closing.written, hspace]

/-- An arrow whose gaps are single spaces and whose head is whole is written as it is. -/
theorem written_eq_text (hopening : a.opening = Text.ofString " ")
    (hgap : a.closing.gap = Text.ofString " ") (hdash : a.closing.dash = Text.ofString "-")
    (hinner : a.closing.inner = []) (hlabel : trim a.label = a.label) : a.written = a.text := by
  rw [written, text_eq, hlabel, hopening, Closing.text, Closing.body, hgap, hdash, hinner]
  simp [Text.ofString]

/-- An arrow that is not yet written weighs more than its written form. -/
theorem written_eq_text_or_lt :
    a.written = a.text ∨ ∀ v s, weight (v ++ a.written ++ s) < weight (v ++ a.text ++ s) := by
  have hlength : (trim a.label).length ≤ a.label.length := (infix_trim a.label).sublist.length_le
  have hcount : (trim a.label).count (CodePoint.ofChar '\t') ≤
      a.label.count (CodePoint.ofChar '\t') :=
    (infix_trim a.label).sublist.count_le _
  have hopening := List.length_pos_iff.2 a.isGapRun.ne_nil
  have hgap := List.length_pos_iff.2 a.closing.isGapRun.ne_nil
  have hlighter (h : ∀ l, bodyWeight l a.neat.body < bodyWeight l a.body) :
      ∀ v s, weight (v ++ a.written ++ s) < weight (v ++ a.text ++ s) := by
    rw [← a.text_neat]
    exact weight_lt_of_body a.head_notMem_body a.neat.head_notMem_body h
  by_cases htight : a.closing.dash = Text.ofString "-" ∧ a.closing.inner = []
  · obtain ⟨hdash, hinner⟩ := htight
    have hone : a.closing.dash.length = 1 := by rw [hdash]; rfl
    by_cases hsame : a.opening.length ≤ 1 ∧ a.closing.gap.length ≤ 1 ∧
        a.label.length ≤ (trim a.label).length ∧ a.opening.count (CodePoint.ofChar '\t') = 0 ∧
        a.closing.gap.count (CodePoint.ofChar '\t') = 0
    · obtain ⟨hopeningLe, hgapLe, hlabel, hopeningTab, hgapTab⟩ := hsame
      exact Or.inl (a.written_eq_text (a.isGapRun.eq_space hopeningLe hopeningTab)
        (a.closing.isGapRun.eq_space hgapLe hgapTab) hdash hinner
        ((infix_trim a.label).eq_of_length_le hlabel))
    · refine Or.inr (hlighter fun l => ?_)
      rw [bodyWeight, bodyWeight, Prod.mk_lt_mk, a.looseness_append_neat, a.length_neat,
        a.count_neat, a.length_body, a.count_body]
      omega
  · refine Or.inr (hlighter fun l => ?_)
    rw [bodyWeight, bodyWeight, Prod.mk_lt_mk, a.looseness_append_neat, a.length_neat, a.count_neat,
      a.length_body, a.count_body, a.looseness_append_body l htight]
    omega

end LabelledArrow

theorem lightens_closeLabelledArrow : Lightens (substitute closeLabelledArrow) := by
  refine .of_steady headed_closeLabelledArrow.toSteady fun h => ?_
  obtain ⟨a, rfl, rfl, -⟩ := closeLabelledArrow_eq_some_iff.1 h
  exact a.written_eq_text_or_lt

theorem lightens_clean : Lightens clean :=
  lightens_closeLabelledArrow.comp
    (lightens_splitShortArrow.comp (lightens_splitLongArrow.comp lightens_breakLines))

/-! ### Cleaning over and over -/

namespace Lightens
variable {step : Text → Text}

theorem weight_iterate_le (h : Lightens step) (n : Nat) (t : Text) :
    weight (step^[n] t) ≤ weight t := by
  induction n with
  | zero => exact le_rfl
  | succ n ih =>
    rw [Function.iterate_succ_apply']
    rcases h (step^[n] t) with heq | hlt
    · rwa [heq]
    · exact hlt.le.trans ih

/-- As many steps as the text weighs bring it to rest. -/
theorem step_iterate_eq (h : Lightens step) {n : Nat} {t : Text}
    (hn : (weight t).1 + (weight t).2 ≤ n) : step (step^[n] t) = step^[n] t := by
  induction n generalizing t with
  | zero =>
    rcases h t with heq | hlt
    · exact heq
    · rw [Prod.lt_iff] at hlt
      omega
  | succ n ih =>
    rw [Function.iterate_succ_apply]
    rcases h t with heq | hlt
    · rw [heq, Function.iterate_fixed heq, heq]
    · rw [Prod.lt_iff] at hlt
      exact ih (by omega)

theorem iterate_eq_of_le (h : Lightens step) {n m : Nat} {t : Text}
    (hn : (weight t).1 + (weight t).2 ≤ n) (hm : n ≤ m) : step^[m] t = step^[n] t := by
  induction m, hm using Nat.le_induction with
  | base => rfl
  | succ m hm ih => rw [Function.iterate_succ_apply', ih, h.step_iterate_eq hn]

end Lightens

/-- Cleaning over and over makes a text longer by at most one character for each of its heads, and
after finitely many passes nothing changes any more. -/
theorem iterate_clean_settles (t : Text) :
    (∀ n, (clean^[n] t).length ≤ t.length + t.count (CodePoint.ofChar '>')) ∧
      ∃ n, n ≤ t.length + 2 * t.count (CodePoint.ofChar '>') + t.count (CodePoint.ofChar '\t') ∧
        ∀ m, n ≤ m → clean^[m] t = clean^[n] t := by
  have hheads := looseHeads_le_count t
  refine ⟨fun n => ?_, (weight t).1 + (weight t).2, ?_,
    fun m hm => lightens_clean.iterate_eq_of_le le_rfl hm⟩
  · have hle : (clean^[n] t).length + looseHeads (clean^[n] t) ≤ t.length + looseHeads t :=
      (lightens_clean.weight_iterate_le n t).1
    omega
  · simp only [weight]
    omega

end FlowDiagram.Code
