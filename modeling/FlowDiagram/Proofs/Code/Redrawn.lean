import FlowDiagram.Proofs.Code.Definition
import FlowDiagram.Proofs.Code.Fence
import FlowDiagram.Proofs.Code.Lexeme
import FlowDiagram.Proofs.Text.Split
import FlowDiagram.Proofs.Text.Trim

/-!
# Texts with arrows drawn anew

What cleaning does to arrows is described without saying which of its steps does it: between the first
dash and the head of an arrow gaps may be closed up, and a labelled arrow may be put in its one
written form, where the blanks before its closing part go as well. Everything else stays. A text may
be cut inside a label, since the fence around code can end there; so the relation also knows texts
that start in one.
-/

namespace FlowDiagram.Code
open FlowDiagram.Text

/-- What may stand between the first dash and the head of an arrow. -/
def isArrowFill (c : CodePoint) : Bool := c == '-' || isGap c

theorem isArrowFill_of_isGap {c : CodePoint} (h : isGap c = true) : isArrowFill c = true := by
  simp [isArrowFill, h]

theorem isArrowFill_of_dashes {y : Text} (hy : ∀ c ∈ y, c = CodePoint.ofChar '-') :
    ∀ c ∈ y, isArrowFill c = true := by
  intro c hc
  rw [hy c hc]
  decide

theorem isArrowFill_of_mem_dash_cons {x : Text} (hx : ∀ c ∈ x, isArrowFill c = true) :
    ∀ c ∈ CodePoint.ofChar '-' :: x, isArrowFill c = true := by
  intro c hc
  rcases List.mem_cons.1 hc with rfl | hc
  · decide
  · exact hx c hc

/-- The second text is the first with some of its arrows drawn anew. The flag tells that the texts
start inside a label, which an arrow drawn anew then closes. -/
inductive Redrawn : Bool → Text → Text → Prop
  | nil : Redrawn false [] []
  | keep {m : Bool} {t u : Text} (c : CodePoint) (h : Redrawn m t u) : Redrawn m (c :: t) (c :: u)
  | arrow {t u x y : Text} (hx : ∀ c ∈ x, isArrowFill c = true)
      (hy : ∀ c ∈ y, c = CodePoint.ofChar '-') (h : Redrawn false t u) :
      Redrawn false (CodePoint.ofChar '-' :: (x ++ CodePoint.ofChar '>' :: t))
        (CodePoint.ofChar '-' :: (y ++ CodePoint.ofChar '>' :: u))
  | openLabel {t u gap : Text} {first : CodePoint} (hgap : IsGapRun gap)
      (hfirst : startsLabel first = true) (h : Redrawn true t u) :
      Redrawn false (Text.ofString "--" ++ (gap ++ first :: t)) (Text.ofString "-- " ++ first :: u)
  | closeLabel {t u b x : Text} (hne : b ≠ []) (hb : ∀ c ∈ b, isBlank c = true)
      (hx : ∀ c ∈ x, isArrowFill c = true) (h : Redrawn false t u) :
      Redrawn true (b ++ CodePoint.ofChar '-' :: (x ++ CodePoint.ofChar '>' :: t))
        (Text.ofString " -->" ++ u)

namespace Redrawn
variable {m : Bool} {t u r v w x : Text} {c : CodePoint}

theorem append_left (x : Text) (h : Redrawn m t u) : Redrawn m (x ++ t) (x ++ u) := by
  induction x with
  | nil => exact h
  | cons c x ih => exact keep c ih

/-! ### Heads of texts -/

/-- Unless it is a dash, the first character stays, or it is a blank before a closing part. -/
theorem cons_left (h : Redrawn m (c :: t) w) (hc : c ≠ '-') :
    (∃ u, w = c :: u ∧ Redrawn m t u) ∨
      (m = true ∧ ∃ b s, b ≠ [] ∧ (∀ d ∈ b, isBlank d = true) ∧
        c :: t = b ++ CodePoint.ofChar '-' :: s) := by
  generalize hs : c :: t = s at h
  cases h with
  | nil => simp at hs
  | keep d h =>
    obtain ⟨rfl, rfl⟩ := List.cons.inj hs
    exact Or.inl ⟨_, rfl, h⟩
  | arrow hx hy h => exact absurd (List.cons.inj hs).1 hc
  | openLabel hgap hfirst h => exact absurd (List.cons.inj hs).1 hc
  | closeLabel hne hb hx h => exact Or.inr ⟨rfl, _, _, hne, hb, rfl⟩

theorem cons_right (h : Redrawn m w (c :: u)) (hc : c ≠ '-') :
    (∃ t, w = c :: t ∧ Redrawn m t u) ∨
      (m = true ∧ c = ' ' ∧ u.head? = some (CodePoint.ofChar '-') ∧
        ∃ d t, w = d :: t ∧ isBlank d = true) := by
  generalize hs : c :: u = s at h
  cases h with
  | nil => simp at hs
  | keep d h =>
    obtain ⟨rfl, rfl⟩ := List.cons.inj hs
    exact Or.inl ⟨_, rfl, h⟩
  | arrow hx hy h => exact absurd (List.cons.inj hs).1 hc
  | openLabel hgap hfirst h => exact absurd (List.cons.inj hs).1 hc
  | @closeLabel _ _ b _ hne hb hx h =>
    obtain ⟨d, b, rfl⟩ := List.exists_cons_of_ne_nil hne
    obtain ⟨rfl, rfl⟩ := List.cons.inj hs
    exact Or.inr ⟨rfl, rfl, rfl, d, _, rfl, hb d (by simp)⟩

/-- A piece that an arrow or its closing part cannot touch stays at the start. -/
theorem exists_of_append_left (h : Redrawn m (x ++ t) w) (hx : CodePoint.ofChar '-' ∉ x)
    (hlast : m = true → ∀ c ∈ x.getLast?, isBlank c = false) :
    ∃ u, w = x ++ u ∧ Redrawn m t u := by
  induction x generalizing w with
  | nil => exact ⟨w, rfl, h⟩
  | cons c x ih =>
    rw [List.mem_cons, not_or] at hx
    rcases cons_left h (Ne.symm hx.1) with ⟨u, rfl, hu⟩ | ⟨hm, b, s, hne, hb, heq⟩
    · have hrest : m = true → ∀ d ∈ x.getLast?, isBlank d = false := by
        intro hm d hd
        exact hlast hm d (List.mem_getLast?_cons hd)
      obtain ⟨v, rfl, hv⟩ := ih hu hx.2 hrest
      exact ⟨v, rfl, hv⟩
    · -- The piece lies within the blanks before a closing part.
      have hdash : CodePoint.ofChar '-' ∉ c :: x := by simpa using hx
      obtain ⟨k, rfl, -⟩ := exists_of_notMem_start heq.symm hdash
      have hd := List.getLast?_eq_some_getLast (List.cons_ne_nil c x)
      have hblank := hb _ (List.mem_append_left k (List.mem_of_getLast? hd))
      rw [hlast hm _ hd] at hblank
      exact absurd hblank (by decide)

theorem exists_of_append_right (h : Redrawn m w (x ++ u)) (hx : CodePoint.ofChar '-' ∉ x)
    (hlast : m = true → ∀ c ∈ x.getLast?, isBlank c = false) :
    ∃ t, w = x ++ t ∧ Redrawn m t u := by
  induction x generalizing w with
  | nil => exact ⟨w, rfl, h⟩
  | cons c x ih =>
    rw [List.mem_cons, not_or] at hx
    rcases cons_right h (Ne.symm hx.1) with ⟨t, rfl, ht⟩ | ⟨hm, hspace, hnext, -⟩
    · have hrest : m = true → ∀ d ∈ x.getLast?, isBlank d = false := by
        intro hm d hd
        exact hlast hm d (List.mem_getLast?_cons hd)
      obtain ⟨v, rfl, hv⟩ := ih ht hx.2 hrest
      exact ⟨v, rfl, hv⟩
    · cases x with
      | nil =>
        have hblank := hlast hm c rfl
        rw [hspace] at hblank
        exact absurd hblank (by decide)
      | cons d x =>
        obtain rfl : d = CodePoint.ofChar '-' := by simpa using hnext
        exact absurd (List.mem_cons_self ..) hx.2

/-! ### Ends of texts -/

theorem head_mem (h : Redrawn m t u) (hm : m = true) :
    CodePoint.ofChar '>' ∈ t ∧ CodePoint.ofChar '>' ∈ u := by
  induction h with
  | nil => exact absurd hm (by decide)
  | keep c h ih => exact ⟨List.mem_cons_of_mem c (ih hm).1, List.mem_cons_of_mem c (ih hm).2⟩
  | arrow => exact absurd hm (by decide)
  | openLabel => exact absurd hm (by decide)
  | closeLabel => exact ⟨by simp, by simp [Text.ofString]⟩

theorem nil_left (h : Redrawn m [] w) : w = [] := by
  generalize hs : [] = s at h
  cases h with
  | nil => rfl
  | keep => simp at hs
  | arrow => simp at hs
  | openLabel => simp [Text.ofString] at hs
  | closeLabel => simp at hs

theorem nil_right (h : Redrawn m w []) : w = [] := by
  generalize hs : [] = s at h
  cases h with
  | nil => rfl
  | keep => simp at hs
  | arrow => simp at hs
  | openLabel => simp [Text.ofString] at hs
  | closeLabel => simp [Text.ofString] at hs

/-- Behind the last head of an arrow nothing changes. -/
theorem exists_of_end_left (h : Redrawn m (t ++ r) w) (hr : CodePoint.ofChar '>' ∉ r) :
    ∃ u, w = u ++ r ∧ Redrawn m t u := by
  generalize hs : t ++ r = s at h
  induction h generalizing t r with
  | nil =>
    obtain ⟨rfl, rfl⟩ := List.append_eq_nil_iff.1 hs
    exact ⟨[], rfl, nil⟩
  | @keep m s v c h ih =>
    cases t with
    | nil =>
      rw [List.nil_append] at hs
      subst hs
      have hrest : CodePoint.ofChar '>' ∉ s := fun hmem => hr (List.mem_cons_of_mem c hmem)
      obtain ⟨u, rfl, hu⟩ := ih hrest (List.nil_append s)
      obtain rfl := hu.nil_left
      exact ⟨[], rfl, hu⟩
    | cons d t =>
      obtain ⟨rfl, rfl⟩ := List.cons.inj hs
      obtain ⟨u, rfl, hu⟩ := ih hr rfl
      exact ⟨d :: u, rfl, keep d hu⟩
  | @arrow s v x y hx hy h ih =>
    rw [← List.cons_append] at hs
    obtain ⟨k, rfl, rfl⟩ := exists_of_notMem_end hs.symm hr
    obtain ⟨u, rfl, hu⟩ := ih hr rfl
    exact ⟨CodePoint.ofChar '-' :: (y ++ CodePoint.ofChar '>' :: u), by simp, arrow hx hy hu⟩
  | @openLabel s v gap first hgap hfirst h ih =>
    obtain ⟨a, b, rfl⟩ := List.append_of_mem (h.head_mem rfl).1
    have hshape :
        (Text.ofString "--" ++ (gap ++ first :: a)) ++ CodePoint.ofChar '>' :: b = t ++ r := by
      rw [hs]
      simp
    obtain ⟨k, rfl, rfl⟩ := exists_of_notMem_end hshape hr
    obtain ⟨u, rfl, hu⟩ := @ih (a ++ CodePoint.ofChar '>' :: k) r hr (by simp)
    exact ⟨Text.ofString "-- " ++ first :: u, by simp, by simpa using openLabel hgap hfirst hu⟩
  | @closeLabel s v b x hne hb hx h ih =>
    have hshape : (b ++ CodePoint.ofChar '-' :: x) ++ CodePoint.ofChar '>' :: s = t ++ r := by
      rw [hs]
      simp
    obtain ⟨k, rfl, rfl⟩ := exists_of_notMem_end hshape hr
    obtain ⟨u, rfl, hu⟩ := ih hr rfl
    exact ⟨Text.ofString " -->" ++ u, by simp, by simpa using closeLabel hne hb hx hu⟩

theorem exists_of_end_right (h : Redrawn m w (u ++ r)) (hr : CodePoint.ofChar '>' ∉ r) :
    ∃ t, w = t ++ r ∧ Redrawn m t u := by
  generalize hs : u ++ r = s at h
  induction h generalizing u r with
  | nil =>
    obtain ⟨rfl, rfl⟩ := List.append_eq_nil_iff.1 hs
    exact ⟨[], rfl, nil⟩
  | @keep m v s c h ih =>
    cases u with
    | nil =>
      rw [List.nil_append] at hs
      subst hs
      have hrest : CodePoint.ofChar '>' ∉ s := fun hmem => hr (List.mem_cons_of_mem c hmem)
      obtain ⟨t, rfl, ht⟩ := ih hrest (List.nil_append s)
      obtain rfl := ht.nil_right
      exact ⟨[], rfl, ht⟩
    | cons d u =>
      obtain ⟨rfl, rfl⟩ := List.cons.inj hs
      obtain ⟨t, rfl, ht⟩ := ih hr rfl
      exact ⟨d :: t, rfl, keep d ht⟩
  | @arrow v s x y hx hy h ih =>
    rw [← List.cons_append] at hs
    obtain ⟨k, rfl, rfl⟩ := exists_of_notMem_end hs.symm hr
    obtain ⟨t, rfl, ht⟩ := ih hr rfl
    exact ⟨CodePoint.ofChar '-' :: (x ++ CodePoint.ofChar '>' :: t), by simp, arrow hx hy ht⟩
  | @openLabel v s gap first hgap hfirst h ih =>
    obtain ⟨a, b, rfl⟩ := List.append_of_mem (h.head_mem rfl).2
    have hshape : (Text.ofString "-- " ++ first :: a) ++ CodePoint.ofChar '>' :: b = u ++ r := by
      rw [hs]
      simp
    obtain ⟨k, rfl, rfl⟩ := exists_of_notMem_end hshape hr
    obtain ⟨t, rfl, ht⟩ := @ih (a ++ CodePoint.ofChar '>' :: k) r hr (by simp)
    exact ⟨Text.ofString "--" ++ (gap ++ first :: t), by simp,
      by simpa using openLabel hgap hfirst ht⟩
  | @closeLabel v s b x hne hb hx h ih =>
    have hshape : Text.ofString " --" ++ CodePoint.ofChar '>' :: s = u ++ r := hs.symm
    obtain ⟨k, rfl, rfl⟩ := exists_of_notMem_end hshape hr
    obtain ⟨t, rfl, ht⟩ := ih hr rfl
    exact ⟨b ++ CodePoint.ofChar '-' :: (x ++ CodePoint.ofChar '>' :: t), by simp,
      closeLabel hne hb hx ht⟩

/-! ### Trimming and fences -/

theorem trimmed (h : Redrawn m t u) (ht : Trimmed t) : Trimmed u := by
  refine ⟨?_, ?_⟩
  · intro c hc
    cases hblank : isBlank c with
    | false => rfl
    | true =>
      obtain ⟨v, rfl⟩ := List.head?_eq_some_iff.1 hc
      have hdash : c ≠ '-' := ne_of_class hblank (by decide)
      rcases cons_right h hdash with ⟨k, rfl, -⟩ | ⟨-, -, -, d, k, rfl, hd⟩
      · rw [← hblank, ht.head c rfl]
      · rw [ht.head d rfl] at hd
        exact absurd hd (by decide)
  · intro c hc
    cases hblank : isBlank c with
    | false => rfl
    | true =>
      obtain ⟨v, rfl⟩ := List.getLast?_eq_some_iff.1 hc
      have hnot : CodePoint.ofChar '>' ∉ [c] := by
        simpa using (ne_of_class hblank (by decide : isBlank '>' = false)).symm
      obtain ⟨k, rfl, -⟩ := exists_of_end_right h hnot
      rw [← hblank, ht.last c List.getLast?_concat]

theorem trim (h : Redrawn m t u) (hm : m = true → Stops isBlank t) :
    Redrawn m (Text.trim t) (Text.trim u) := by
  obtain ⟨l, r, hl, hr, ht, htrimmed⟩ := exists_trim t
  have hdash : CodePoint.ofChar '-' ∉ l := fun hmem => absurd (hl _ hmem) (by decide)
  have hhead : CodePoint.ofChar '>' ∉ r := fun hmem => absurd (hr _ hmem) (by decide)
  have hlast : m = true → ∀ c ∈ l.getLast?, isBlank c = false := by
    intro htrue c hc
    cases l with
    | nil => simp at hc
    | cons d l =>
      have hstop := hm htrue
      rw [ht, List.append_assoc, List.cons_append, stops_cons, hl d (by simp)] at hstop
      exact absurd hstop (by decide)
  have hsplit : Redrawn m (l ++ (Text.trim t ++ r)) u := by rwa [← List.append_assoc, ← ht]
  obtain ⟨v, rfl, hv⟩ := exists_of_append_left hsplit hdash hlast
  obtain ⟨k, rfl, hk⟩ := exists_of_end_left hv hhead
  rw [← List.append_assoc, trim_append_append hl (hk.trimmed htrimmed) hr]
  exact hk

theorem dropClosingFence (h : Redrawn m t u) :
    Redrawn m (Code.dropClosingFence t) (Code.dropClosingFence u) := by
  have hfence : CodePoint.ofChar '>' ∉ fence := by decide
  have hfeed : CodePoint.ofChar '>' ∉ Text.ofString "\n" ++ fence := by decide
  rcases dropClosingFence_cases t with ⟨hnot, ht⟩ | ht | ⟨ht, hlast⟩
  · have hnotu : ¬ fence <:+ u := by
      intro hends
      obtain ⟨v, rfl⟩ := hends
      obtain ⟨k, rfl, -⟩ := exists_of_end_right h hfence
      exact hnot (List.suffix_append _ _)
    rwa [ht, dropClosingFence_of_not_suffix hnotu]
  · rw [ht] at h
    obtain ⟨v, rfl, hv⟩ := exists_of_end_left h hfeed
    rwa [dropClosingFence_lineFeed]
  · rw [ht] at h
    obtain ⟨v, rfl, hv⟩ := exists_of_end_left h hfence
    have hlastu : v.getLast? ≠ some (CodePoint.ofChar '\n') := by
      intro hv'
      obtain ⟨k, rfl⟩ := List.getLast?_eq_some_iff.1 hv'
      obtain ⟨j, hj, -⟩ := exists_of_end_right hv (by decide)
      exact hlast (by rw [hj, List.getLast?_concat])
    rwa [dropClosingFence_fence hlastu]

theorem dropWhile {p : CodePoint → Bool} (h : Redrawn m t u) (hm : m = false)
    (hp : p '-' = false) : Redrawn false (t.dropWhile p) (u.dropWhile p) := by
  induction h with
  | nil => exact nil
  | @keep m t u c h ih =>
    subst hm
    cases hc : p c with
    | true => simpa [hc] using ih rfl
    | false => simpa [hc] using keep c h
  | arrow hx hy h => simpa [hp] using arrow hx hy h
  | openLabel hgap hfirst h => simpa [hp, Text.ofString] using openLabel hgap hfirst h
  | closeLabel => exact absurd hm (by decide)

theorem stripLineFeed (h : Redrawn false t u) :
    Redrawn false ((Scanner.optional '\n').strip t) ((Scanner.optional '\n').strip u) := by
  have hdash : CodePoint.ofChar '-' ∉ [CodePoint.ofChar '\n'] := by decide
  by_cases hfeed : t.head? = some (CodePoint.ofChar '\n')
  · obtain ⟨s, rfl⟩ := List.head?_eq_some_iff.1 hfeed
    obtain ⟨v, rfl, hv⟩ :=
      @exists_of_append_left false s u [CodePoint.ofChar '\n'] h hdash (by simp)
    rwa [Scanner.strip_optional_cons, List.singleton_append, Scanner.strip_optional_cons]
  · have hfeedu : u.head? ≠ some (CodePoint.ofChar '\n') := by
      intro hu
      obtain ⟨v, rfl⟩ := List.head?_eq_some_iff.1 hu
      obtain ⟨s, rfl, -⟩ :=
        @exists_of_append_right false v t [CodePoint.ofChar '\n'] h hdash (by simp)
      exact hfeed rfl
    have hstops : ∀ s : Text, s.head? ≠ some (CodePoint.ofChar '\n') → Stops (· == '\n') s := by
      intro s hs c hc
      refine Bool.eq_false_iff.2 fun heq => hs ?_
      rw [Option.mem_def.1 hc, eq_of_beq heq]
    rwa [Scanner.strip_optional_of_stops (hstops t hfeed),
      Scanner.strip_optional_of_stops (hstops u hfeedu)]

theorem exists_dropWhile_fill {p : CodePoint → Bool} (hx : ∀ c ∈ x, isArrowFill c = true)
    (hp : p '>' = false) (t : Text) :
    ∃ y, (∀ c ∈ y, isArrowFill c = true) ∧
      (x ++ CodePoint.ofChar '>' :: t).dropWhile p = y ++ CodePoint.ofChar '>' :: t := by
  induction x with
  | nil => exact ⟨[], by simp, by simp [hp]⟩
  | cons c x ih =>
    cases hc : p c with
    | true =>
      obtain ⟨y, hy, heq⟩ := ih fun d hd => hx d (List.mem_cons_of_mem c hd)
      exact ⟨y, hy, by simpa [hc] using heq⟩
    | false => exact ⟨c :: x, hx, by simp [hc]⟩

/-- An arrow that the tag of a fence starts would leave code that starts with its rest. -/
theorem exists_head_behindTag_arrow (hx : ∀ c ∈ x, isArrowFill c = true) (t : Text) :
    ∃ c ∈ (Code.behindTag (CodePoint.ofChar '-' :: (x ++ CodePoint.ofChar '>' :: t))).head?,
      c = '-' ∨ c = '>' := by
  have htag : isTagChar '-' = true := by decide
  obtain ⟨y, hy, hytag⟩ := exists_dropWhile_fill hx (by decide : isTagChar '>' = false) t
  obtain ⟨z, hz, hzgap⟩ := exists_dropWhile_fill hy (by decide : isGap '>' = false) t
  have hstop : Stops isGap (z ++ CodePoint.ofChar '>' :: t) := hzgap ▸ stops_dropWhile isGap _
  have hbehind : Code.behindTag (CodePoint.ofChar '-' :: (x ++ CodePoint.ofChar '>' :: t)) =
      (Scanner.optional '\n').strip (z ++ CodePoint.ofChar '>' :: t) := by
    rw [Code.behindTag, List.dropWhile_cons_of_pos htag, hytag, hzgap]
  rw [hbehind]
  cases z with
  | nil =>
    rw [List.nil_append, Scanner.strip_optional_of_stops (stops_cons.2 (by decide))]
    exact ⟨_, rfl, Or.inr rfl⟩
  | cons c z =>
    obtain rfl : c = CodePoint.ofChar '-' := by
      simpa [isArrowFill, stops_cons.1 hstop] using hz c (by simp)
    rw [List.cons_append, Scanner.strip_optional_of_stops (stops_cons.2 (by decide))]
    exact ⟨_, rfl, Or.inl rfl⟩

theorem behindTag_openLabel {gap : Text} {first : CodePoint} (hgap : IsGapRun gap)
    (hfirst : startsLabel first = true) (t : Text) :
    Code.behindTag (Text.ofString "--" ++ (gap ++ first :: t)) = first :: t := by
  have htag : ∀ c ∈ Text.ofString "--", isTagChar c = true := by decide
  have hblank : isBlank first = false := (startsLabel_iff.1 hfirst).1
  have hstop : Stops isGap (first :: t) := by
    rw [stops_cons]
    exact Bool.eq_false_iff.2 fun h => absurd (isBlank_of_isGap h) (by simp [hblank])
  have hstart : Stops isTagChar (gap ++ first :: t) := by
    obtain ⟨c, u, rfl⟩ := List.exists_cons_of_ne_nil hgap.ne_nil
    have hc : c = CodePoint.ofChar ' ' ∨ c = CodePoint.ofChar '\t' := by
      simpa [isGap] using hgap.chars c (by simp)
    rw [List.cons_append, stops_cons]
    rcases hc with rfl | rfl <;> decide
  have hfeed : Stops (· == '\n') (first :: t) := by
    rw [stops_cons]
    simpa using ne_of_class (p := fun d => !isBlank d) (by simp [hblank]) (by decide)
  rw [Code.behindTag, dropWhile_append_of_stops htag hstart,
    dropWhile_append_of_stops hgap.chars hstop, Scanner.strip_optional_of_stops hfeed]

/-- The tag of a fence may open a label, which the code behind the fence then starts in. -/
theorem behindTag (h : Redrawn m t u) (hm : m = false)
    (hhead : ∀ c ∈ (Code.behindTag t).head?, c ≠ '-' ∧ c ≠ '>') :
    ∃ k, Redrawn k (Code.behindTag t) (Code.behindTag u) ∧
      (k = true → Stops isBlank (Code.behindTag t)) := by
  have hgap : isGap '-' = false := by decide
  have htag : isTagChar '-' = true := by decide
  induction h with
  | nil => exact ⟨false, nil, by simp⟩
  | @keep m t u c h ih =>
    subst hm
    cases hc : isTagChar c with
    | true =>
      have htail : ∀ s, Code.behindTag (c :: s) = Code.behindTag s := by
        intro s
        simp [Code.behindTag, hc]
      rw [htail, htail]
      rw [htail] at hhead
      exact ih rfl hhead
    | false =>
      have hstay : ∀ s, Code.behindTag (c :: s) =
          (Scanner.optional '\n').strip ((c :: s).dropWhile isGap) := by
        intro s
        simp [Code.behindTag, hc]
      rw [hstay, hstay]
      exact ⟨false, ((keep c h).dropWhile rfl hgap).stripLineFeed, by simp⟩
  | @arrow t u x y hx hy h =>
    obtain ⟨c, hc, hdash⟩ := exists_head_behindTag_arrow hx t
    exact absurd hdash (by simpa using hhead c hc)
  | @openLabel t u gap first hgap hfirst h =>
    have hspace : IsGapRun (Text.ofString " ") := ⟨by simp [Text.ofString], by decide⟩
    have hspaced : Text.ofString "-- " ++ first :: u =
        Text.ofString "--" ++ (Text.ofString " " ++ first :: u) := rfl
    rw [hspaced, behindTag_openLabel hgap hfirst, behindTag_openLabel hspace hfirst]
    exact ⟨true, keep first h, fun _ => stops_cons.2 (startsLabel_iff.1 hfirst).1⟩
  | closeLabel => exact absurd hm (by decide)

/-- The first character of a block is that of its code, or a blank before it. -/
theorem head_of_head_trim {s : Text} (hne : Text.trim (Code.dropClosingFence s) ≠ [])
    (hhead : ∀ c ∈ (Text.trim (Code.dropClosingFence s)).head?, c ≠ '-' ∧ c ≠ '>') :
    ∀ c ∈ s.head?, c ≠ '-' ∧ c ≠ '>' := by
  intro c hc
  obtain ⟨k, hk⟩ := isPrefix_dropClosingFence s
  cases hdrop : Code.dropClosingFence s with
  | nil =>
    rw [hdrop] at hne
    exact absurd rfl hne
  | cons d v =>
    rw [hdrop] at hhead hk
    obtain rfl : d = c := by
      rw [← hk] at hc
      simpa using hc
    cases hblank : isBlank d with
    | true => exact ⟨ne_of_class hblank (by decide), ne_of_class hblank (by decide)⟩
    | false => exact hhead d (head?_trim v hblank)

theorem unfence (h : Redrawn false t u) (hne : Code.unfence t ≠ [])
    (hhead : ∀ c ∈ (Code.unfence t).head?, c ≠ '-' ∧ c ≠ '>') :
    ∃ k, Redrawn k (Code.unfence t) (Code.unfence u) := by
  have hdash : CodePoint.ofChar '-' ∉ fence := by decide
  have htrim : Redrawn false (Text.trim t) (Text.trim u) := h.trim (by simp)
  unfold Code.unfence at hne hhead ⊢
  by_cases hfence : fence <+: Text.trim t
  · obtain ⟨s, hs⟩ := hfence
    rw [← hs] at htrim hne hhead ⊢
    obtain ⟨v, hv, hredrawn⟩ := exists_of_append_left htrim hdash (by simp)
    rw [hv, strip_openingFence, strip_openingFence]
    rw [strip_openingFence] at hne hhead
    obtain ⟨k, hk, hstops⟩ := hredrawn.behindTag rfl (head_of_head_trim hne hhead)
    refine ⟨k, hk.dropClosingFence.trim fun htrue => ?_⟩
    exact (hstops htrue).of_isPrefix (isPrefix_dropClosingFence _)
  · have hfenceu : ¬ fence <+: Text.trim u := by
      intro hopens
      obtain ⟨v, hv⟩ := hopens
      rw [← hv] at htrim
      obtain ⟨s, hs, -⟩ := exists_of_append_right htrim hdash (by simp)
      exact hfence ⟨s, hs.symm⟩
    rw [Scanner.strip_of_none (read_openingFence_eq_none_iff.2 hfence),
      Scanner.strip_of_none (read_openingFence_eq_none_iff.2 hfenceu)]
    exact ⟨false, htrim.dropClosingFence.trim (by simp)⟩

end Redrawn

end FlowDiagram.Code
