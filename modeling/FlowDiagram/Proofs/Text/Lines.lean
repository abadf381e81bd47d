import FlowDiagram.Proofs.Text.Split
import FlowDiagram.Text.Line
import Mathlib.Data.List.Basic

/-!
# Lines of a text

Every text is cut into lines in one way, behind each of its line ends. Lines that hold no line end
and are joined by line feeds are read back by `lines`, unless the last one is empty. So a piece
without a line feed that stands in joined lines stands in one of them.
-/

namespace FlowDiagram.Text

/-- No character of the text ends a line. -/
def OneLine (t : Text) : Prop := ∀ c ∈ t, isLineEnd c = false

instance (t : Text) : Decidable (OneLine t) :=
  inferInstanceAs (Decidable (∀ c ∈ t, isLineEnd c = false))

theorem oneLine_append {s t : Text} (hs : OneLine s) (ht : OneLine t) : OneLine (s ++ t) := by
  intro c hc
  exact (List.mem_append.1 hc).elim (hs c) (ht c)

theorem oneLine_joinWith {s : Text} (hs : OneLine s) {ls : List Text} (hls : ∀ l ∈ ls, OneLine l) :
    OneLine (joinWith s ls) := by
  induction ls with
  | nil => exact List.forall_mem_nil _
  | cons l ls ih =>
    rw [List.forall_mem_cons] at hls
    by_cases hnil : ls = []
    · rw [hnil]
      exact hls.1
    · rw [joinWith_cons _ _ hnil]
      exact oneLine_append (oneLine_append hls.1 hs) (ih hls.2)

theorem lines_cons_of_not_lineEnd {c : CodePoint} (t : Text) (hc : isLineEnd c = false) :
    lines (c :: t) =
      match lines t with
      | [] => [[c]]
      | line :: rest => (c :: line) :: rest := by
  cases hlines : lines t with
  | nil =>
    rw [lines.eq_def]
    simp [hc, hlines]
  | cons line rest =>
    rw [lines.eq_def]
    simp [hc, hlines]

theorem lines_lineFeed (t : Text) : lines (('\n' : CodePoint) :: t) = [] :: lines t := by
  have hend : isLineEnd '\n' = true := by decide
  rw [lines.eq_def]
  cases t with
  | nil => rfl
  | cons d u => simp [hend]

theorem lines_append {l t line : Text} {ls : List Text} (hl : OneLine l)
    (h : lines t = line :: ls) : lines (l ++ t) = (l ++ line) :: ls := by
  induction l with
  | nil => exact h
  | cons c l ih =>
    have hc : isLineEnd c = false := hl c (by simp)
    have hrest : OneLine l := fun d hd => hl d (by simp [hd])
    rw [List.cons_append, lines_cons_of_not_lineEnd _ hc, ih hrest]
    rfl

theorem lines_append_lineFeed {l : Text} (hl : OneLine l) (t : Text) :
    lines (l ++ ('\n' : CodePoint) :: t) = l :: lines t := by
  rw [lines_append hl (lines_lineFeed t), List.append_nil]

theorem lines_eq_singleton {l : Text} (hl : OneLine l) (hne : l ≠ []) : lines l = [l] := by
  induction l with
  | nil => contradiction
  | cons c l ih =>
    have hc : isLineEnd c = false := hl c (by simp)
    rw [lines_cons_of_not_lineEnd _ hc]
    cases l with
    | nil => rfl
    | cons d l =>
      have hrest : OneLine (d :: l) := fun e he => hl e (List.mem_cons_of_mem _ he)
      rw [ih hrest (by simp)]

/-! ### The lines of any text -/

/-- What ends a line before `rest`: a carriage return with the line feed that belongs to it, or any
other single line end. -/
def EndsLine (ending rest : Text) : Prop :=
  ending = "\r\n" ∨
    ∃ c, ending = [c] ∧ isLineEnd c = true ∧
      ¬ (c = '\r' ∧ rest.head? = some (CodePoint.ofChar '\n'))

/-- The text is cut behind every line end. A last line without one is there only if it is not
empty. -/
inductive IsCut : Text → List Text → Prop
  | nil : IsCut [] []
  | last {line : Text} : line ≠ [] → OneLine line → IsCut line [line]
  | cons {line ending rest : Text} {ls : List Text} :
      OneLine line → EndsLine ending rest → IsCut rest ls →
        IsCut (line ++ ending ++ rest) (line :: ls)

theorem IsCut.eq_nil {t : Text} (h : IsCut t []) : t = [] := by
  cases h
  rfl

/-- A character that ends no line goes into the first line. -/
theorem IsCut.cons_char {c : CodePoint} {t line : Text} {ls : List Text}
    (hc : isLineEnd c = false) (h : IsCut t (line :: ls)) : IsCut (c :: t) ((c :: line) :: ls) := by
  have hcons : ∀ {l}, OneLine l → OneLine (c :: l) := by
    intro l hl d hd
    rcases List.mem_cons.1 hd with rfl | hd
    · exact hc
    · exact hl d hd
  cases h with
  | last hne hline => exact .last (List.cons_ne_nil _ _) (hcons hline)
  | cons hline hending hrest => exact .cons (hcons hline) hending hrest

theorem isCut_lines (t : Text) : IsCut t (lines t) := by
  have hempty : OneLine [] := List.forall_mem_nil _
  fun_induction lines t with
  | case1 => exact .nil
  | case2 c hc => exact .cons hempty (.inr ⟨c, rfl, hc, by simp⟩) .nil
  | case3 c hc d u ih ihrest =>
    split
    · rename_i hcrlf
      obtain ⟨rfl, rfl⟩ : c = '\r' ∧ d = '\n' := by simpa using hcrlf
      exact .cons hempty (.inl rfl) ih
    · rename_i hcrlf
      exact .cons hempty (.inr ⟨c, rfl, hc, by simpa using hcrlf⟩) ihrest
  | case4 c t hc hlines ih =>
    rw [hlines] at ih
    obtain rfl := ih.eq_nil
    exact .last (by simp) (by simpa [OneLine] using hc)
  | case5 c t hc line rest hlines ih =>
    rw [hlines] at ih
    exact ih.cons_char (by simpa using hc)

theorem lines_endsLine {ending rest : Text} (h : EndsLine ending rest) :
    lines (ending ++ rest) = [] :: lines rest := by
  rcases h with rfl | ⟨c, rfl, hc, hcrlf⟩
  · rfl
  · cases rest with
    | nil =>
      rw [lines.eq_def]
      simp [hc, lines]
    | cons d u =>
      have hnot : (c == CodePoint.ofChar '\r' && d == CodePoint.ofChar '\n') = false := by
        simpa using hcrlf
      rw [lines.eq_def]
      simp [hc, hnot]

/-- There is one way to cut a text into lines. -/
theorem isCut_iff {t : Text} {ls : List Text} : IsCut t ls ↔ ls = lines t := by
  constructor
  · intro h
    induction h with
    | nil => rfl
    | last hne hline => exact (lines_eq_singleton hline hne).symm
    | cons hline hending hrest ih =>
      rw [List.append_assoc, lines_append hline (lines_endsLine hending), List.append_nil, ih]
  · intro h
    rw [h]
    exact isCut_lines t

/-! ### Joined lines -/

theorem lines_joinWith {ls : List Text} (hls : ∀ l ∈ ls, OneLine l)
    (hlast : ls.getLast? ≠ some []) : lines (joinWith "\n" ls) = ls := by
  induction ls with
  | nil => rfl
  | cons l ls ih =>
    have hl : OneLine l := hls l (by simp)
    cases ls with
    | nil =>
      have hne : l ≠ [] := by
        intro heq
        subst heq
        exact hlast rfl
      exact lines_eq_singleton hl hne
    | cons m ls =>
      have hrest : lines (joinWith "\n" (m :: ls)) = m :: ls := by
        refine ih (fun k hk => hls k (List.mem_cons_of_mem _ hk)) ?_
        rwa [List.getLast?_cons_cons] at hlast
      have hjoin : joinWith "\n" (l :: m :: ls) =
          l ++ ('\n' : CodePoint) :: joinWith "\n" (m :: ls) := by
        rw [joinWith_cons _ _ (by simp), List.append_assoc]
        rfl
      rw [hjoin, lines_append_lineFeed hl, hrest]

theorem prefix_joinWith_cons (s l : Text) (ls : List Text) : l <+: joinWith s (l :: ls) := by
  cases ls with
  | nil => exact List.prefix_rfl
  | cons m ls =>
    rw [joinWith_cons _ _ (by simp), List.append_assoc]
    exact List.prefix_append l _

theorem prefix_joinWith (s : Text) {ls ms : List Text} (h : ls <+: ms) :
    joinWith s ls <+: joinWith s ms := by
  induction ls generalizing ms with
  | nil => exact List.nil_prefix
  | cons l ls ih =>
    obtain ⟨rest, rfl⟩ := h
    by_cases hls : ls = []
    · rw [hls]
      exact prefix_joinWith_cons s l rest
    · have hrest : ls ++ rest ≠ [] := List.append_ne_nil_of_left_ne_nil hls rest
      rw [List.cons_append, joinWith_cons _ _ hls, joinWith_cons _ _ hrest]
      exact (List.prefix_append_right_inj _).2 (ih (List.prefix_append ls rest))

theorem getLast?_joinWith (s : Text) {l : Text} {ls : List Text} (h : ls.getLast? = some l)
    (hne : l ≠ []) : (joinWith s ls).getLast? = l.getLast? := by
  induction ls with
  | nil => simp at h
  | cons m ls ih =>
    cases ls with
    | nil =>
      obtain rfl : m = l := by simpa using h
      rfl
    | cons k ls =>
      rw [List.getLast?_cons_cons] at h
      have hrest := ih h
      have hjoin : joinWith s (k :: ls) ≠ [] := by
        intro hnil
        rw [hnil] at hrest
        exact hne (List.getLast?_eq_none_iff.1 hrest.symm)
      rw [joinWith_cons _ _ (by simp), List.getLast?_append_of_ne_nil _ hjoin, hrest]

/-! ### Pieces of joined lines -/

theorem exists_infix_of_infix_joinWith {x : Text} {ls : List Text} (h : x <:+: joinWith "\n" ls)
    (hfeed : CodePoint.ofChar '\n' ∉ x) (hne : x ≠ []) : ∃ l ∈ ls, x <:+: l := by
  induction ls with
  | nil => exact absurd (List.infix_nil.1 h) hne
  | cons l ls ih =>
    cases ls with
    | nil => exact ⟨l, by simp, h⟩
    | cons m ls =>
      rw [joinWith_cons _ _ (by simp), List.append_assoc] at h
      rcases infix_or_infix_of_append_cons h hfeed with hl | hrest
      · exact ⟨l, by simp, hl⟩
      · obtain ⟨k, hk, hx⟩ := ih hrest
        exact ⟨k, List.mem_cons_of_mem _ hk, hx⟩

theorem mem_joinWith {c : CodePoint} {ls : List Text} (h : c ∈ joinWith "\n" ls)
    (hfeed : c ≠ '\n') : ∃ l ∈ ls, c ∈ l := by
  have hin : [c] <:+: joinWith "\n" ls := (List.singleton_infix_iff c _).2 h
  have hnot : CodePoint.ofChar '\n' ∉ [c] := by simpa using hfeed.symm
  obtain ⟨l, hl, hcl⟩ := exists_infix_of_infix_joinWith hin hnot (by simp)
  exact ⟨l, hl, (List.singleton_infix_iff c l).1 hcl⟩

theorem infix_joinWith_of_mem (s : Text) {l : Text} {ls : List Text} (h : l ∈ ls) :
    l <:+: joinWith s ls := by
  induction ls with
  | nil => simp at h
  | cons m ls ih =>
    by_cases hls : ls = []
    · subst hls
      obtain rfl : l = m := by simpa using h
      exact List.infix_rfl
    · rw [joinWith_cons _ _ hls]
      rcases List.mem_cons.1 h with rfl | h
      · exact List.infix_append_of_infix_left (List.infix_append_of_infix_left List.infix_rfl)
      · exact List.infix_append_of_infix_right (ih h)

end FlowDiagram.Text
