import FlowDiagram.Proofs.Label.Normal
import FlowDiagram.Proofs.Text.Split

/-!
# Labels under a limit

A label is normal when it is plain and has no two spaces next to each other: these are the labels
that sanitizing leaves as they are. A limit of more than three keeps a label normal, since the dots
come right behind a word. A lower one only takes the first characters, and the last of them may be a
space.
-/

namespace FlowDiagram.Label
open FlowDiagram.Text

/-! ### Single spaces -/

def doubleSpace : Text := "  "

theorem not_doubleSpace_spaced {ws : List Text} (h : ∀ w ∈ ws, IsWordRun w) :
    ¬ doubleSpace <:+: spaced ws := by
  induction ws with
  | nil => decide
  | cons w ws ih =>
    have hw : CodePoint.ofChar ' ' ∉ w := fun hmem =>
      absurd ((h w (by simp)).chars _ hmem) (by decide)
    have hws : ∀ v ∈ ws, IsWordRun v := fun v hv => h v (by simp [hv])
    by_cases hne : ws = []
    · rw [hne]
      exact fun hin => hw (hin.subset (by simp [doubleSpace, Text.ofString]))
    · rw [spaced_cons w hne]
      intro hin
      rcases List.infix_cons_iff.1 (infix_of_infix_append hin hw) with hstart | hrest
      · -- The second space would be the first character of the next word.
        obtain ⟨t, ht⟩ := (List.cons_prefix_cons.1 hstart).2
        have hblank := (trimmed_spaced hws).head (CodePoint.ofChar ' ') (by rw [← ht]; rfl)
        exact absurd hblank (by decide)
      · exact ih hws hrest

theorem collapse_eq_self {t : Text} (hchars : ∀ c ∈ t, isBlank c = true → c = ' ')
    (hsingle : ¬ doubleSpace <:+: t) : collapse t = t := by
  induction t with
  | nil => rfl
  | cons c t ih =>
    have hrest : collapse t = t :=
      ih (fun d hd => hchars d (by simp [hd])) fun hin =>
        hsingle (hin.trans (List.suffix_cons c t).isInfix)
    by_cases hc : isBlank c = true
    · obtain rfl := hchars c (by simp) hc
      have hnext : startsBlank t = false := by
        cases t with
        | nil => rfl
        | cons d t =>
          refine Bool.eq_false_iff.2 fun hd => hsingle ?_
          obtain rfl := hchars d (by simp) hd
          exact ⟨[], t, rfl⟩
      rw [collapse_cons_of_isBlank hc, hnext, hrest]
      rfl
    · rw [collapse, if_neg hc, hrest]

/-! ### Normal labels -/

theorem isLabelChar_iff {c : CodePoint} :
    isLabelChar c = true ↔
      isStructural c = false ∧ c ≠ '<' ∧ c ≠ '>' ∧ (isBlank c = true → c = ' ') := by
  cases h : isBlank c <;> simp [isLabelChar, h, and_assoc]

/-- Plain, with single spaces. -/
structure IsNormal (t : Text) : Prop extends IsPlain t where
  single : ¬ doubleSpace <:+: t

theorem IsNormal.sanitize_eq {t : Text} (h : IsNormal t) (fallback : Text) :
    sanitize fallback t = t := by
  have hfree : (t.filter fun c => !isStructural c) = t := by
    refine List.filter_eq_self.2 fun c hc => ?_
    simp [(isLabelChar_iff.1 (h.chars c hc)).1]
  have hspaces : collapse t = t :=
    collapse_eq_self (fun c hc => eq_space_of_isBlank (h.chars c hc)) h.single
  have hremainder : remainder t = t := by
    rw [remainder, hfree, hspaces, trim_eq_self h.trimmed]
  rw [Label.sanitize_eq, hremainder, if_neg h.ne_nil]

theorem isNormal_sanitize {fallback : Text} (hf : IsNormal fallback) (raw : Text) :
    IsNormal (sanitize fallback (withoutAngles raw)) where
  toIsPlain := isPlain_sanitize hf.toIsPlain raw
  single := by
    rw [sanitize_eq]
    split
    · exact hf.single
    · rw [remainder_eq_spaced]
      exact not_doubleSpace_spaced isWordRun_of_mem_labelWords

theorem isNormal_standard : IsNormal Settings.standard.fallbackLabel :=
  ⟨isPlain_standard, by decide⟩

/-! ### Cutting a normal label -/

/-- A piece of a normal label loses one space at most when it is trimmed. -/
theorem IsNormal.trimRight_take {t : Text} (h : IsNormal t) (n : Nat) :
    trimRight (t.take n) = t.take n ∨ trimRight (t.take n) ++ " " = t.take n := by
  obtain ⟨r, hr, htake, -⟩ := exists_trimRight (t.take n)
  have hspace : ∀ c ∈ r, c = CodePoint.ofChar ' ' := by
    intro c hc
    have hmem : c ∈ t.take n := by
      rw [htake]
      exact List.mem_append_right _ hc
    exact eq_space_of_isBlank (h.chars c (List.mem_of_mem_take hmem)) (hr c hc)
  match r with
  | [] => exact Or.inl (by rw [List.append_nil] at htake; exact htake.symm)
  | [c] =>
    obtain rfl := hspace c (by simp)
    exact Or.inr htake.symm
  | c :: d :: s =>
    obtain rfl := hspace c (by simp)
    obtain rfl := hspace d (by simp)
    have hdouble : doubleSpace <:+: t.take n := by
      refine ⟨trimRight (t.take n), s, ?_⟩
      conv_rhs => rw [htake]
      rw [List.append_assoc]
      rfl
    exact absurd (hdouble.trans (List.take_prefix n t).isInfix) h.single

theorem isPrefix_trimRight_take (t : Text) (n : Nat) : trimRight (t.take n) <+: t := by
  obtain ⟨r, -, htake, -⟩ := exists_trimRight (t.take n)
  have htrimmed : trimRight (t.take n) <+: t.take n := ⟨r, htake.symm⟩
  exact htrimmed.trans (List.take_prefix n t)

theorem IsNormal.dotted {t : Text} (h : IsNormal t) {n : Nat} (hn : 0 < n) :
    IsNormal (trimRight (t.take n) ++ ellipsis) where
  toIsPlain := h.toIsPlain.dotted hn
  single := by
    have hdots : ellipsis = CodePoint.ofChar '.' :: Text.ofString ".." := rfl
    rw [hdots]
    intro hin
    rcases infix_or_infix_of_append_cons hin (by decide) with h' | h'
    · exact h.single (h'.trans (isPrefix_trimRight_take t n).isInfix)
    · exact absurd h' (by decide)

/-- What a limit makes of the full label. A label that fits stays. Of a longer one the first
characters stay, and where there is room for an ellipsis it takes the place of the last three of
these and of a space before them. -/
structure IsShortened (limit : Int) (full label : Text) : Prop where
  whole : limit ≤ 0 ∨ (full.length : Int) ≤ limit → label = full
  bare : 0 < limit → limit ≤ 3 → limit < full.length → label = full.take limit.toNat
  dotted : 3 < limit → limit < full.length → ∃ part, part <+: full ∧ label = part ++ ellipsis ∧
    ((label.length : Int) = limit ∨
      ((label.length : Int) + 1 = limit ∧ part ++ Text.ofString " " <+: full))

theorem shorten_eq_dotted {limit : Int} {label : Text} (hroom : 3 < limit)
    (hlong : limit < label.length) :
    shorten limit label = trimRight (label.take (limit - 3).toNat) ++ ellipsis := by
  rw [shorten, if_neg (by omega), if_neg (by omega)]

theorem IsNormal.isShortened {full : Text} (h : IsNormal full) (limit : Int) :
    IsShortened limit full (shorten limit full) where
  whole := shorten_eq_self
  bare hpos hle hlong := by
    rw [shorten, if_neg (by omega), if_pos hle]
  dotted hroom hlong := by
    have hdots : ellipsis.length = 3 := rfl
    have htake : (full.take (limit - 3).toNat).length = (limit - 3).toNat := by
      rw [List.length_take]
      omega
    refine ⟨trimRight (full.take (limit - 3).toNat), isPrefix_trimRight_take _ _,
      shorten_eq_dotted hroom hlong, ?_⟩
    rw [shorten_eq_dotted hroom hlong, List.length_append, hdots]
    rcases h.trimRight_take (limit - 3).toNat with heq | heq
    · left
      rw [heq, htake]
      omega
    · right
      have hlen := congrArg List.length heq
      have hone : (Text.ofString " ").length = 1 := rfl
      rw [List.length_append, hone, htake] at hlen
      refine ⟨by omega, ?_⟩
      rw [heq]
      exact List.take_prefix _ _

theorem IsShortened.length_le {limit : Int} {full label : Text} (h : IsShortened limit full label)
    (hpos : 0 < limit) : (label.length : Int) ≤ limit := by
  by_cases hfits : (full.length : Int) ≤ limit
  · rw [h.whole (Or.inr hfits)]
    exact hfits
  · by_cases hle : limit ≤ 3
    · rw [h.bare hpos hle (by omega), List.length_take]
      omega
    · obtain ⟨part, -, -, hlen | ⟨hlen, -⟩⟩ := h.dotted (by omega) (by omega) <;> omega

theorem IsNormal.shorten {t : Text} (h : IsNormal t) {limit : Int}
    (hlimit : limit < 1 ∨ 3 < limit) : IsNormal (shorten limit t) := by
  unfold Label.shorten
  split
  · exact h
  · split
    · omega
    · exact h.dotted (by omega)

theorem IsNormal.not_doubleSpace_shorten {t : Text} (h : IsNormal t) (limit : Int) :
    ¬ doubleSpace <:+: Label.shorten limit t := by
  by_cases hlimit : limit < 1 ∨ 3 < limit
  · exact (h.shorten hlimit).single
  · by_cases hfits : (t.length : Int) ≤ limit
    · rw [(h.isShortened limit).whole (Or.inr hfits)]
      exact h.single
    · rw [(h.isShortened limit).bare (by omega) (by omega) (by omega)]
      exact fun hin => h.single (hin.trans (List.take_prefix _ t).isInfix)

/-! ### Rendered labels -/

theorem renderLabel_zero (fallback : Text) (raw : Option Text) :
    renderLabel fallback 0 raw = sanitize fallback (withoutAngles (raw.getD [])) :=
  shorten_eq_self (Or.inl (Int.le_refl 0))

theorem isNormal_renderLabel_zero {fallback : Text} (hf : IsNormal fallback) (raw : Option Text) :
    IsNormal (renderLabel fallback 0 raw) := by
  rw [renderLabel_zero]
  exact isNormal_sanitize hf _

/-- Every limit cuts the same full label. -/
theorem renderLabel_eq_shorten (fallback : Text) (limit : Int) (raw : Option Text) :
    renderLabel fallback limit raw = shorten limit (renderLabel fallback 0 raw) := by
  rw [renderLabel_zero]
  rfl

/-- A rendered label is fit for code under every limit, and what the limit takes away is known. -/
theorem renderLabel_under_limit (raw : Option Text) (limit : Int) :
    let fallback := Settings.standard.fallbackLabel
    let full := renderLabel fallback 0 raw
    let label := renderLabel fallback limit raw
    label ≠ [] ∧
      (∀ c ∈ label, isStructural c = false ∧ c ≠ '<' ∧ c ≠ '>' ∧ (isBlank c = true → c = ' ')) ∧
      ¬ doubleSpace <:+: label ∧
      (∀ c ∈ label.head?, isBlank c = false) ∧
      (0 < limit → (label.length : Int) ≤ limit) ∧
      IsShortened limit full label ∧
      (limit < 1 ∨ 3 < limit → sanitize fallback label = label) := by
  intro fallback full label
  have hfull : IsNormal full := isNormal_renderLabel_zero isNormal_standard raw
  have hlabel : label = shorten limit full := renderLabel_eq_shorten fallback limit raw
  have hwritten : IsWritten label := isWritten_renderLabel isPlain_standard limit raw
  have hshortened : IsShortened limit full label := hlabel ▸ hfull.isShortened limit
  refine ⟨hwritten.ne_nil, fun c hc => isLabelChar_iff.1 (hwritten.chars c hc), ?_, hwritten.head,
    hshortened.length_le, hshortened, ?_⟩
  · rw [hlabel]
    exact hfull.not_doubleSpace_shorten limit
  · intro hlimit
    rw [hlabel]
    exact (hfull.shorten hlimit).sanitize_eq fallback

/-- Under a limit of two the space at the end stays. -/
example : renderLabel "Step" 2 (some "a <b>") = Text.ofString "a " := by decide

end FlowDiagram.Label
