import FlowDiagram.Proofs.Text.Lines
import FlowDiagram.Proofs.Text.Trim

/-!
# Words of a text

A word is a run of characters none of which is blank. The words of a text are what lies between its
blanks, and collapsing the blanks and trimming writes these words with single spaces between them.
Words that are written so are read back.
-/

namespace FlowDiagram.Text
variable {c : CodePoint} {t w x y : Text} {ws : List Text}

/-- The pieces between the blanks of a text, without the empty ones. -/
def words (t : Text) : List Text := (t.splitOnP isBlank).filter fun w => !w.isEmpty

/-- The words with single spaces between them. -/
def spaced (ws : List Text) : Text := joinWith " " ws

structure IsWordRun (w : Text) : Prop where
  ne_nil : w ≠ []
  chars : ∀ c ∈ w, isBlank c = false

/-! ### Cutting at a blank -/

@[simp] theorem words_nil : words [] = [] := by simp [words, List.splitOnP_nil]

theorem words_append_cons (hc : isBlank c = true) (x y : Text) :
    words (x ++ c :: y) = words x ++ words y := by
  unfold words
  rw [List.splitOnP_append_cons x y hc, List.filter_append]

theorem words_cons (hc : isBlank c = true) (t : Text) : words (c :: t) = words t :=
  words_append_cons hc [] t

theorem words_append_of_blanks (hx : ∀ c ∈ x, isBlank c = true) (t : Text) :
    words (x ++ t) = words t := by
  induction x with
  | nil => rfl
  | cons c x ih =>
    rw [List.cons_append, words_cons (hx c (by simp))]
    exact ih fun d hd => hx d (by simp [hd])

theorem words_of_isWordRun (h : IsWordRun w) : words w = [w] := by
  rw [words, List.splitOnP_eq_singleton h.chars]
  simp [h.ne_nil]

/-- A text is one run without blanks, or such a run and a blank come before the rest of it. -/
theorem blank_induction {P : Text → Prop} (run : ∀ t, (∀ c ∈ t, isBlank c = false) → P t)
    (blank : ∀ x c y, (∀ d ∈ x, isBlank d = false) → isBlank c = true → P x → P y →
      P (x ++ c :: y)) (t : Text) : P t := by
  induction hn : t.length using Nat.strong_induction_on generalizing t with
  | _ n ih =>
    have hrun : ∀ d ∈ t.takeWhile fun c => !isBlank c, isBlank d = false := fun d hd => by
      simpa using List.mem_takeWhile_imp hd
    have hsplit : t.takeWhile (fun c => !isBlank c) ++ t.dropWhile (fun c => !isBlank c) = t :=
      List.takeWhile_append_dropWhile
    cases hrest : t.dropWhile fun c => !isBlank c with
    | nil =>
      rw [hrest, List.append_nil] at hsplit
      rw [← hsplit]
      exact run _ hrun
    | cons c y =>
      have hc : isBlank c = true := by
        have hstop := stops_dropWhile (fun c => !isBlank c) t
        rw [hrest, stops_cons] at hstop
        simpa using hstop
      rw [hrest] at hsplit
      rw [← hsplit]
      refine blank _ c y hrun hc (run _ hrun) (ih y.length ?_ y rfl)
      rw [← hn, ← hsplit, List.length_append, List.length_cons]
      omega

theorem isWordRun_of_mem_words (h : w ∈ words t) : IsWordRun w := by
  induction t using blank_induction with
  | run t ht =>
    by_cases hne : t = []
    · rw [hne] at h
      exact absurd h (by simp)
    · rw [words_of_isWordRun ⟨hne, ht⟩, List.mem_singleton] at h
      exact h ▸ ⟨hne, ht⟩
  | blank x c y hx hc hrun ih =>
    rw [words_append_cons hc, List.mem_append] at h
    exact h.elim hrun ih

/-- The words of a text hold all of it but the blanks, in order. -/
theorem flatten_words (t : Text) : (words t).flatten = t.filter fun c => !isBlank c := by
  induction t using blank_induction with
  | run t ht =>
    by_cases hne : t = []
    · rw [hne]
      rfl
    · rw [words_of_isWordRun ⟨hne, ht⟩, List.flatten_singleton]
      exact (List.filter_eq_self.2 fun c hc => by simp [ht c hc]).symm
  | blank x c y hx hc hrun ih =>
    rw [words_append_cons hc, List.flatten_append, hrun, ih, List.filter_append,
      List.filter_cons_of_neg (by simpa using hc)]

/-! ### Writing words -/

theorem spaced_cons (w : Text) (hne : ws ≠ []) :
    spaced (w :: ws) = w ++ CodePoint.ofChar ' ' :: spaced ws := by
  rw [spaced, joinWith_cons _ _ hne, List.append_assoc]
  rfl

theorem words_spaced (h : ∀ w ∈ ws, IsWordRun w) : words (spaced ws) = ws := by
  induction ws with
  | nil => rfl
  | cons w ws ih =>
    have hw : words w = [w] := words_of_isWordRun (h w (by simp))
    have hrest : words (spaced ws) = ws := ih fun v hv => h v (by simp [hv])
    by_cases hne : ws = []
    · rw [hne]
      exact hw
    · rw [spaced_cons w hne, words_append_cons (by decide), hw, hrest, List.singleton_append]

theorem filter_spaced (h : ∀ w ∈ ws, IsWordRun w) :
    (spaced ws).filter (fun c => !isBlank c) = ws.flatten := by
  rw [← flatten_words, words_spaced h]

theorem trimmed_spaced (h : ∀ w ∈ ws, IsWordRun w) : Trimmed (spaced ws) where
  head c hc := by
    cases ws with
    | nil => simp [spaced] at hc
    | cons w ws =>
      have hw : IsWordRun w := h w (by simp)
      obtain ⟨d, u, rfl⟩ := List.exists_cons_of_ne_nil hw.ne_nil
      obtain ⟨rest, hrest⟩ := prefix_joinWith_cons " " (d :: u) ws
      rw [spaced, ← hrest] at hc
      obtain rfl : d = c := by simpa using hc
      exact hw.chars d (by simp)
  last c hc := by
    rcases List.eq_nil_or_concat' ws with rfl | ⟨us, v, rfl⟩
    · simp [spaced] at hc
    · have hv : IsWordRun v := h v (by simp)
      rw [spaced, getLast?_joinWith " " (by simp) hv.ne_nil] at hc
      exact hv.chars c (List.mem_of_getLast? hc)

theorem spaced_ne_nil (h : ∀ w ∈ ws, IsWordRun w) (hne : ws ≠ []) : spaced ws ≠ [] := by
  intro hnil
  have hwords := words_spaced h
  rw [hnil, words_nil] at hwords
  exact hne hwords.symm

/-! ### Collapsing blanks -/

def startsBlank (t : Text) : Bool := (t.head?.map isBlank).getD false

theorem collapse_cons_of_isBlank (hc : isBlank c = true) (t : Text) :
    collapse (c :: t) = if startsBlank t then collapse t else CodePoint.ofChar ' ' :: collapse t :=
  if_pos hc

theorem collapse_append_run (hx : ∀ c ∈ x, isBlank c = false) (t : Text) :
    collapse (x ++ t) = x ++ collapse t := by
  induction x with
  | nil => rfl
  | cons c x ih =>
    have hc : ¬ isBlank c = true := Bool.eq_false_iff.1 (hx c (by simp))
    have hrest : collapse (x ++ t) = x ++ collapse t := ih fun d hd => hx d (by simp [hd])
    rw [List.cons_append, collapse, if_neg hc, hrest, List.cons_append]

theorem startsBlank_append (hx : IsWordRun x) (t : Text) : startsBlank (x ++ t) = false := by
  obtain ⟨d, u, rfl⟩ := List.exists_cons_of_ne_nil hx.ne_nil
  exact hx.chars d (by simp)

/-- A text with its blanks collapsed has one space where it starts with blanks, then its words with
single spaces, and perhaps a space at the end. -/
theorem exists_collapse (t : Text) :
    ∃ r, (∀ c ∈ r, isBlank c = true) ∧
      collapse t = (if startsBlank t then Text.ofString " " else []) ++ spaced (words t) ++ r := by
  -- The run before each blank is a word, or empty where two blanks meet and one of them goes.
  induction t using blank_induction with
  | run t ht =>
    refine ⟨[], by simp, ?_⟩
    by_cases hne : t = []
    · rw [hne]
      rfl
    · have hword : IsWordRun t := ⟨hne, ht⟩
      have hstart : startsBlank t = false := by simpa using startsBlank_append hword []
      have hall : collapse t = t := by simpa [collapse] using collapse_append_run ht []
      rw [hall, hstart, words_of_isWordRun hword]
      simp [spaced]
  | blank x c y hx hc hrun ih =>
    obtain ⟨r, hr, hy⟩ := ih
    have hgap : collapse (c :: y) = CodePoint.ofChar ' ' :: (spaced (words y) ++ r) := by
      rw [collapse_cons_of_isBlank hc, hy]
      cases startsBlank y <;> rfl
    rw [collapse_append_run hx, hgap, words_append_cons hc]
    by_cases hne : x = []
    · have hstart : startsBlank (c :: y) = true := hc
      refine ⟨r, hr, ?_⟩
      rw [hne, List.nil_append, List.nil_append, hstart]
      rfl
    · have hword : IsWordRun x := ⟨hne, hx⟩
      rw [startsBlank_append hword, words_of_isWordRun hword, List.singleton_append]
      by_cases hnone : words y = []
      · refine ⟨CodePoint.ofChar ' ' :: r, ?_, ?_⟩
        · exact List.forall_mem_cons.2 ⟨by decide, hr⟩
        · rw [hnone]
          rfl
      · refine ⟨r, hr, ?_⟩
        rw [spaced_cons x hnone]
        simp

theorem trim_collapse (t : Text) : trim (collapse t) = spaced (words t) := by
  obtain ⟨r, hr, hform⟩ := exists_collapse t
  have hlead : ∀ c ∈ if startsBlank t then Text.ofString " " else [], isBlank c = true := by
    split <;> decide
  rw [hform, trim_append_append hlead (trimmed_spaced fun w => isWordRun_of_mem_words) hr]

end FlowDiagram.Text
