import FlowDiagram.Proofs.Code.Header
import FlowDiagram.Proofs.Code.Markup
import FlowDiagram.Proofs.Code.Redrawn

/-!
# What redrawing arrows keeps

Six of the seven rules still find nothing in code whose arrows were drawn anew: those on the header,
on brackets, markup and broken arrows, on ids defined twice and on structure. The rule on the least
length is left out, since closing up gaps makes code shorter.
-/

namespace FlowDiagram.Code
open FlowDiagram.Text

/-- Code in which all rules but the one on the least length find nothing. -/
structure WellFormed (code : Text) : Prop where
  type : typeRule code = none
  brackets : bracketRule code = none
  markup : markupRule code = none
  arrows : arrowRule code = none
  ids : duplicateRule code = none
  structured : structureRule code = none

theorem issues_eq_nil_iff_wellFormed {minLength : Int} {code : Text} :
    issues minLength code = [] ↔ WellFormed code ∧ lengthRule minLength code = none := by
  rw [issues_eq_nil_iff]
  constructor
  · intro hrules
    obtain ⟨htype, hlength, hbrackets, hmarkup, harrows, hids, hstructured⟩ := hrules
    exact ⟨⟨htype, hbrackets, hmarkup, harrows, hids, hstructured⟩, hlength⟩
  · intro hboth
    obtain ⟨h, hlength⟩ := hboth
    exact ⟨h.type, hlength, h.brackets, h.markup, h.arrows, h.ids, h.structured⟩

theorem WellFormed.issues_eq {code : Text} (h : WellFormed code) (minLength : Int) :
    issues minLength code = (lengthRule minLength code).toList := by
  rw [issues_eq_append, h.type, h.brackets, h.markup, h.arrows, h.ids, h.structured]
  simp

/-! ### Counts -/

theorem isArrowFill_cases {c : CodePoint} (h : isArrowFill c = true) :
    c = '-' ∨ isBlank c = true := by
  simp only [isArrowFill, Bool.or_eq_true, beq_iff_eq] at h
  exact h.imp_right isBlank_of_isGap

theorem count_fill {x : Text} {c : CodePoint} (hx : ∀ d ∈ x, isArrowFill d = true)
    (hdash : c ≠ '-') (hblank : isBlank c = false) : x.count c = 0 := by
  refine List.count_eq_zero.2 fun hmem => ?_
  rcases isArrowFill_cases (hx c hmem) with h | h
  · exact hdash h
  · rw [hblank] at h
    exact absurd h (by decide)

namespace Redrawn
variable {m : Bool} {t u : Text}

theorem count_eq (h : Redrawn m t u) {c : CodePoint} (hdash : c ≠ '-')
    (hblank : isBlank c = false) : t.count c = u.count c := by
  have hspace : c ≠ ' ' := (ne_of_class (p := fun d => !isBlank d) (by simp [hblank]) (by decide))
  induction h with
  | nil => rfl
  | keep d h ih => rw [List.count_cons, List.count_cons, ih]
  | @arrow t u x y hx hy h ih =>
    have hyfill := isArrowFill_of_dashes hy
    simp only [List.count_cons, List.count_append, count_fill hx hdash hblank,
      count_fill hyfill hdash hblank, ih]
  | @openLabel t u gap first hgap hfirst h ih =>
    have hgaps := fun d hd => isArrowFill_of_isGap (hgap.chars d hd)
    simp [Text.ofString, List.count_cons, count_fill hgaps hdash hblank, ih, hdash.symm,
      hspace.symm]
  | @closeLabel t u b x hne hb hx h ih =>
    have hbs : b.count c = 0 := by
      refine List.count_eq_zero.2 fun hmem => ?_
      rw [hb c hmem] at hblank
      exact absurd hblank (by decide)
    simp [Text.ofString, List.count_cons, hbs, count_fill hx hdash hblank, ih, hdash.symm,
      hspace.symm]

theorem bracketRule_eq_none (h : Redrawn m t u) (ht : bracketRule t = none) :
    bracketRule u = none := by
  have hall : ∀ pair ∈ bracketPairs, (pair.1 ≠ '-' ∧ isBlank pair.1 = false) ∧
      (pair.2 ≠ '-' ∧ isBlank pair.2 = false) := by decide
  rw [bracketRule_eq_none_iff] at ht ⊢
  intro pair hpair
  obtain ⟨⟨hdash, hblank⟩, hdash', hblank'⟩ := hall pair hpair
  rw [← h.count_eq hdash hblank, ← h.count_eq hdash' hblank']
  exact ht pair hpair

/-! ### Header -/

theorem typeRule_eq_none (h : Redrawn m t u) (ht : typeRule t = none) : typeRule u = none := by
  rw [typeRule_eq_none_iff] at ht ⊢
  obtain ⟨x, s, rfl, hname, -, hword⟩ := StartsDiagram.exists_header ht
  have hdash : CodePoint.ofChar '-' ∉ x := fun hmem => absurd (hword _ hmem) (by decide)
  have hlast : m = true → ∀ c ∈ x.getLast?, isBlank c = false := fun _ c hc =>
    isBlank_of_isWord (hword c (List.mem_of_getLast? hc))
  obtain ⟨k, rfl, -⟩ := exists_of_append_left h hdash hlast
  exact ⟨_, hname, toLowerAscii k, List.map_append.symm⟩

end Redrawn

/-! ### Broken arrows -/

/-- The broken arrow that every other one holds. -/
def brokenArrow : Text := "- >"

theorem broken_cons_iff {c : CodePoint} {s : Text} :
    brokenArrow <:+: c :: s ↔
      (c = CodePoint.ofChar '-' ∧ Text.ofString " >" <+: s) ∨ brokenArrow <:+: s := by
  have hcons : brokenArrow = CodePoint.ofChar '-' :: Text.ofString " >" := rfl
  rw [List.infix_cons_iff, hcons, List.cons_prefix_cons, eq_comm]

/-- Dashes before a head break no arrow. -/
theorem broken_of_dashes {y s : Text} (hy : ∀ c ∈ y, c = CodePoint.ofChar '-')
    (h : brokenArrow <:+: y ++ CodePoint.ofChar '>' :: s) : brokenArrow <:+: s := by
  induction y with
  | nil =>
    rcases broken_cons_iff.1 h with ⟨hc, -⟩ | h
    · exact absurd hc (by decide)
    · exact h
  | cons c y ih =>
    rw [List.cons_append] at h
    rcases broken_cons_iff.1 h with ⟨-, hprefix⟩ | h
    · obtain ⟨d, v, hd, hne⟩ : ∃ d v, y ++ CodePoint.ofChar '>' :: s = d :: v ∧ d ≠ ' ' := by
        cases y with
        | nil => exact ⟨_, s, rfl, by decide⟩
        | cons d y => exact ⟨d, _, rfl, by rw [hy d (by simp)]; decide⟩
      rw [hd] at hprefix
      exact absurd (List.cons_prefix_cons.1 hprefix).1 hne.symm
    · exact ih (fun d hd => hy d (List.mem_cons_of_mem c hd)) h

namespace Redrawn
variable {m : Bool} {t u : Text}

/-- Redrawing breaks no arrow that was whole. -/
theorem broken (h : Redrawn m t u) (hu : brokenArrow <:+: u) :
    brokenArrow <:+: t := by
  induction h with
  | nil => exact hu
  | keep c h ih =>
    rcases broken_cons_iff.1 hu with ⟨rfl, v, rfl⟩ | hu
    · obtain ⟨k, rfl, -⟩ := exists_of_append_right h (by decide) (fun _ => by decide)
      exact broken_cons_iff.2 (Or.inl ⟨rfl, List.prefix_append _ _⟩)
    · exact broken_cons_iff.2 (Or.inr (ih hu))
  | @arrow t u x y hx hy h ih =>
    have hdashes : ∀ c ∈ CodePoint.ofChar '-' :: y, c = CodePoint.ofChar '-' := by
      intro c hc
      exact (List.mem_cons.1 hc).elim id (hy c)
    have htail := ih (broken_of_dashes hdashes hu)
    exact htail.trans ⟨CodePoint.ofChar '-' :: (x ++ [CodePoint.ofChar '>']), [], by simp⟩
  | @openLabel t u gap first hgap hfirst h ih =>
    obtain ⟨-, hhead, hdash⟩ := startsLabel_iff.1 hfirst
    have htail : brokenArrow <:+: u := by
      simpa [Text.ofString, broken_cons_iff, hhead.symm, hdash] using hu
    exact (ih htail).trans ⟨Text.ofString "--" ++ gap ++ [first], [], by simp⟩
  | @closeLabel t u b x hne hb hx h ih =>
    have htail : brokenArrow <:+: u := by
      simpa [Text.ofString, broken_cons_iff] using hu
    exact (ih htail).trans
      ⟨b ++ CodePoint.ofChar '-' :: (x ++ [CodePoint.ofChar '>']), [], by simp⟩

theorem arrowRule_eq_none (h : Redrawn m t u) (ht : arrowRule t = none) : arrowRule u = none := by
  rw [arrowRule_eq_none_iff] at ht ⊢
  exact mt h.broken ht

end Redrawn

/-! ### Ids -/

theorem idsFrom_dash (p : Position) (s : Text) :
    idsFrom p (CodePoint.ofChar '-' :: s) = idsFrom .beyond s := by
  have hend : isLineEnd '-' = false := by decide
  have hblank : isBlank '-' = false := by decide
  have hword : isWord '-' = false := by decide
  have hopening : isShapeOpening '-' = false := by decide
  cases p with
  | start => simp [idsFrom, Position.step, hend, hblank, hword]
  | word w => simp [idsFrom, Position.step, hend, hword, hopening]
  | beyond => simp [idsFrom, Position.step, hend]

theorem idsFrom_beyond_append {x : Text} (hx : OneLine x) (s : Text) :
    idsFrom .beyond (x ++ s) = idsFrom .beyond s := by
  induction x with
  | nil => rfl
  | cons c x ih =>
    have hc : isLineEnd c = false := hx c (by simp)
    have hrest := ih fun d hd => hx d (List.mem_cons_of_mem c hd)
    simpa [idsFrom, Position.step, hc] using hrest

/-- No id is completed by blanks and a dash. -/
theorem idsFrom_blanks_dash {b : Text} (hb : ∀ c ∈ b, isBlank c = true) (p : Position) (s : Text) :
    idsFrom p (b ++ CodePoint.ofChar '-' :: s) = idsFrom .beyond s := by
  induction b generalizing p with
  | nil => exact idsFrom_dash p s
  | cons c b ih =>
    have hc : isBlank c = true := hb c (by simp)
    have hword : isWord c = false := isWord_of_isBlank hc
    have hopening : isShapeOpening c = false := by
      refine Bool.eq_false_iff.2 fun h => ?_
      simp only [isShapeOpening, Bool.or_eq_true, beq_iff_eq] at h
      rcases h with (rfl | rfl) | rfl <;> exact absurd hc (by decide)
    have hnone : (p.step c).2 = none := by
      cases p <;> simp [Position.step, hc, hword, hopening] <;> split <;> rfl
    rw [List.cons_append, idsFrom, hnone, ih fun d hd => hb d (List.mem_cons_of_mem c hd)]
    rfl

theorem oneLine_fill {x : Text} (hx : ∀ c ∈ x, isArrowFill c = true) : OneLine x := by
  intro c hc
  have hfill := hx c hc
  simp only [isArrowFill, isGap, Bool.or_eq_true, beq_iff_eq] at hfill
  rcases hfill with rfl | rfl | rfl <;> decide

/-- No id is completed within an arrow or in blanks before it. -/
theorem idsFrom_arrow {b x : Text} (hb : ∀ c ∈ b, isBlank c = true)
    (hx : ∀ c ∈ x, isArrowFill c = true) (p : Position) (s : Text) :
    idsFrom p (b ++ CodePoint.ofChar '-' :: (x ++ CodePoint.ofChar '>' :: s)) =
      idsFrom .beyond s := by
  have hhead : OneLine [CodePoint.ofChar '>'] := by
    intro c hc
    obtain rfl := List.mem_singleton.1 hc
    decide
  rw [idsFrom_blanks_dash hb, idsFrom_beyond_append (oneLine_fill hx)]
  exact idsFrom_beyond_append hhead s

theorem idsFrom_labelOpening {gap : Text} (hgap : ∀ c ∈ gap, isGap c = true) (p : Position)
    (s : Text) : idsFrom p (Text.ofString "--" ++ (gap ++ s)) = idsFrom .beyond s := by
  have hfill := isArrowFill_of_mem_dash_cons fun c hc => isArrowFill_of_isGap (hgap c hc)
  have hshape : Text.ofString "--" ++ (gap ++ s) =
      CodePoint.ofChar '-' :: ((CodePoint.ofChar '-' :: gap) ++ s) := rfl
  rw [hshape, idsFrom_dash, idsFrom_beyond_append (oneLine_fill hfill)]

namespace Redrawn
variable {m : Bool} {t u : Text}

theorem idsFrom_eq (h : Redrawn m t u) (p : Position) : idsFrom p t = idsFrom p u := by
  induction h generalizing p with
  | nil => rfl
  | keep c h ih => rw [idsFrom, idsFrom, ih]
  | @arrow t u x y hx hy h ih =>
    have hyfill := isArrowFill_of_dashes hy
    have hold := idsFrom_arrow (b := []) (by simp) hx p t
    have hnew := idsFrom_arrow (b := []) (by simp) hyfill p u
    exact hold.trans ((ih .beyond).trans hnew.symm)
  | @openLabel t u gap first hgap hfirst h ih =>
    have hspaced : Text.ofString "-- " ++ first :: u =
        Text.ofString "--" ++ (Text.ofString " " ++ first :: u) := rfl
    rw [hspaced, idsFrom_labelOpening hgap.chars, idsFrom_labelOpening (by decide), idsFrom,
      idsFrom, ih]
  | @closeLabel t u b x hne hb hx h ih =>
    have hclosing : Text.ofString " -->" ++ u =
        Text.ofString " " ++
          CodePoint.ofChar '-' :: (Text.ofString "-" ++ CodePoint.ofChar '>' :: u) := rfl
    rw [hclosing, idsFrom_arrow hb hx, idsFrom_arrow (by decide) (by decide), ih]

theorem duplicateRule_eq_none (h : Redrawn m t u) (ht : duplicateRule t = none) :
    duplicateRule u = none := by
  rw [duplicateRule_eq_none_iff, definedIds_eq_idsFrom] at ht ⊢
  rwa [← h.idsFrom_eq]

/-! ### Markup -/

/-- What starts with an angle bracket after redrawing has its place in the text before. -/
theorem exists_suffix (h : Redrawn m t u) {v : Text} (hv : CodePoint.ofChar '<' :: v <:+ u) :
    ∃ w k, w <:+ t ∧ Redrawn k w (CodePoint.ofChar '<' :: v) := by
  induction h with
  | nil => exact absurd (List.suffix_nil.1 hv) (by simp)
  | @keep m t u c h ih =>
    rcases List.suffix_cons_iff.1 hv with heq | hv
    · obtain ⟨rfl, rfl⟩ := List.cons.inj heq
      exact ⟨_, m, List.suffix_refl _, keep _ h⟩
    · obtain ⟨w, k, hw, hk⟩ := ih hv
      exact ⟨w, k, hw.trans (List.suffix_cons c t), hk⟩
  | @arrow t u x y hx hy h ih =>
    have hnot : CodePoint.ofChar '<' ∉ CodePoint.ofChar '-' :: (y ++ [CodePoint.ofChar '>']) := by
      intro hmem
      simp only [List.mem_cons, List.mem_append, List.not_mem_nil, or_false] at hmem
      rcases hmem with hmem | hmem | hmem
      · exact absurd hmem (by decide)
      · exact absurd (hy _ hmem) (by decide)
      · exact absurd hmem (by decide)
    obtain ⟨w, k, hw, hk⟩ := ih (suffix_of_suffix_append (by simpa using hv) hnot)
    exact ⟨w, k, hw.trans ⟨CodePoint.ofChar '-' :: (x ++ [CodePoint.ofChar '>']), by simp⟩, hk⟩
  | @openLabel t u gap first hgap hfirst h ih =>
    have hsuffix : first :: t <:+ Text.ofString "--" ++ (gap ++ first :: t) :=
      (List.suffix_append _ _).trans (List.suffix_append _ _)
    rcases List.suffix_cons_iff.1 (suffix_of_suffix_append hv (by decide)) with heq | hv
    · obtain ⟨rfl, rfl⟩ := List.cons.inj heq
      exact ⟨_, true, hsuffix, keep _ h⟩
    · obtain ⟨w, k, hw, hk⟩ := ih hv
      exact ⟨w, k, (hw.trans (List.suffix_cons first t)).trans hsuffix, hk⟩
  | @closeLabel t u b x hne hb hx h ih =>
    obtain ⟨w, k, hw, hk⟩ := ih (suffix_of_suffix_append hv (by decide))
    exact ⟨w, k, hw.trans ⟨b ++ CodePoint.ofChar '-' :: (x ++ [CodePoint.ofChar '>']), by simp⟩,
      hk⟩

theorem stops_isWord (h : Redrawn m t u) (hu : Stops isWord u) : Stops isWord t := by
  cases h with
  | nil => exact hu
  | keep c h => exact stops_cons.2 (stops_cons.1 hu)
  | arrow => exact stops_cons.2 (by decide)
  | openLabel => exact stops_cons.2 (by decide)
  | closeLabel hne hb =>
    obtain ⟨c, b, rfl⟩ := List.exists_cons_of_ne_nil hne
    exact stops_cons.2 (isWord_of_isBlank (hb c (by simp)))

theorem markupRule_eq_none (h : Redrawn m t u) (ht : markupRule t = none) :
    markupRule u = none := by
  rw [markupRule, Option.map_eq_none_iff, search_markup_eq_none_iff] at ht ⊢
  intro s x rest hu hx hstop
  obtain ⟨y, hy⟩ : ∃ y, x = CodePoint.ofChar '<' :: y := by
    obtain ⟨gap, name, -, -, hshape⟩ := hx
    exact ⟨_, hshape⟩
  have hsuffix : CodePoint.ofChar '<' :: (y ++ rest) <:+ u := ⟨s, by rw [hu, hy]; rfl⟩
  obtain ⟨w, k, ⟨p, hp⟩, hk⟩ := h.exists_suffix hsuffix
  rw [← List.cons_append, ← hy] at hk
  obtain ⟨v, rfl, hv⟩ := exists_of_append_right hk hx.dash_notMem fun _ => hx.last
  exact ht p x v hp.symm hx (hv.stops_isWord hstop)

/-! ### Structure -/

theorem arrow_infix_of_label (h : Redrawn m t u) (hm : m = true) : Text.ofString "->" <:+: u := by
  induction h with
  | nil => exact absurd hm (by decide)
  | keep c h ih => exact List.infix_cons (ih hm)
  | arrow => exact absurd hm (by decide)
  | openLabel => exact absurd hm (by decide)
  | @closeLabel t u => exact ⟨Text.ofString " -", u, rfl⟩

theorem eq_or_arrow_infix (h : Redrawn m t u) : u = t ∨ Text.ofString "->" <:+: u := by
  induction h with
  | nil => exact Or.inl rfl
  | keep c h ih =>
    rcases ih with rfl | hin
    · exact Or.inl rfl
    · exact Or.inr (List.infix_cons hin)
  | @arrow t u x y hx hy h ih =>
    have hne : CodePoint.ofChar '-' :: y ≠ [] := List.cons_ne_nil _ _
    have hlast : (CodePoint.ofChar '-' :: y).getLast hne = CodePoint.ofChar '-' :=
      (List.mem_cons.1 (List.getLast_mem hne)).elim id (hy _)
    have hdashes := List.dropLast_append_getLast hne
    rw [hlast] at hdashes
    refine Or.inr ⟨(CodePoint.ofChar '-' :: y).dropLast, u, ?_⟩
    rw [← List.cons_append, ← hdashes, List.append_assoc, List.append_assoc]
    simp [Text.ofString]
  | @openLabel t u gap first hgap hfirst h ih =>
    have hin := h.arrow_infix_of_label rfl
    exact Or.inr (hin.trans ⟨Text.ofString "-- " ++ [first], [], by simp⟩)
  | @closeLabel t u => exact Or.inr ⟨Text.ofString " -", u, rfl⟩

theorem structureRule_eq_none (h : Redrawn m t u) (ht : structureRule t = none) :
    structureRule u = none := by
  rcases h.eq_or_arrow_infix with rfl | hin
  · exact ht
  · rw [structureRule_eq_none_iff]
    exact Or.inl ⟨"->", by decide, hin⟩

/-! ### All rules -/

theorem wellFormed (h : Redrawn m t u) (ht : WellFormed t) : WellFormed u where
  type := h.typeRule_eq_none ht.type
  brackets := h.bracketRule_eq_none ht.brackets
  markup := h.markupRule_eq_none ht.markup
  arrows := h.arrowRule_eq_none ht.arrows
  ids := h.duplicateRule_eq_none ht.ids
  structured := h.structureRule_eq_none ht.structured

end Redrawn

end FlowDiagram.Code
