import FlowDiagram.Text.Blank
import Mathlib.Data.List.DropRight

/-!
# Runs at the ends of a text

A run of a class at the start of a text ends where the class stops. A text is trimmed when neither
its first nor its last character is blank; `trim` finds the trimmed part between two runs of blanks,
and there is only one.
-/

namespace FlowDiagram.Text

/-! ### Runs at the start -/

/-- The text is empty or starts outside the class. -/
def Stops (p : CodePoint → Bool) (t : Text) : Prop := ∀ c ∈ t.head?, p c = false

theorem stops_nil (p : CodePoint → Bool) : Stops p [] := by simp [Stops]

theorem stops_cons {p : CodePoint → Bool} {c : CodePoint} {t : Text} :
    Stops p (c :: t) ↔ p c = false := by simp [Stops]

theorem stops_append {p : CodePoint → Bool} {w t : Text} (hw : ∀ c ∈ w, p c = false)
    (ht : Stops p t) : Stops p (w ++ t) := by
  cases w with
  | nil => exact ht
  | cons c w => exact stops_cons.2 (hw c (by simp))

theorem stops_dropWhile (p : CodePoint → Bool) (t : Text) : Stops p (t.dropWhile p) := by
  intro c hc
  have h := List.head?_dropWhile_not p t
  rw [Option.mem_def.1 hc] at h
  exact h

theorem Stops.of_isPrefix {p : CodePoint → Bool} {s t : Text} (ht : Stops p t) (h : s <+: t) :
    Stops p s := by
  intro c hc
  obtain ⟨u, rfl⟩ := h
  refine ht c ?_
  rw [List.head?_append, Option.mem_def.1 hc]
  rfl

theorem takeWhile_append_of_stops {p : CodePoint → Bool} {w t : Text}
    (hw : ∀ c ∈ w, p c = true) (ht : Stops p t) : (w ++ t).takeWhile p = w := by
  rw [List.takeWhile_append_of_pos hw]
  cases t with
  | nil => simp
  | cons c t => simp [stops_cons.1 ht]

theorem dropWhile_append_of_stops {p : CodePoint → Bool} {w t : Text}
    (hw : ∀ c ∈ w, p c = true) (ht : Stops p t) : (w ++ t).dropWhile p = t := by
  rw [List.dropWhile_append_of_pos hw]
  cases t with
  | nil => rfl
  | cons c t => simp [stops_cons.1 ht]

/-- A run at the start does not go on into a text that stops it. -/
theorem dropWhile_append_right {p : CodePoint → Bool} {t : Text} (ht : Stops p t) (w : Text) :
    (w ++ t).dropWhile p = w.dropWhile p ++ t := by
  rw [List.dropWhile_append]
  split
  · rename_i hempty
    rw [List.isEmpty_iff.1 hempty]
    exact dropWhile_append_of_stops (w := []) (by simp) ht
  · rfl

/-- A run of a class and what follows it are found in a text in one way only. -/
theorem append_cons_inj_of_stops {p : CodePoint → Bool} {u v s t : Text} {c d : CodePoint}
    (hu : ∀ e ∈ u, p e = true) (hv : ∀ e ∈ v, p e = true) (hc : p c = false) (hd : p d = false)
    (h : u ++ c :: s = v ++ d :: t) : u = v ∧ c = d ∧ s = t := by
  have huv : u = v := by
    rw [← takeWhile_append_of_stops hu (stops_cons.2 hc), h,
      takeWhile_append_of_stops hv (stops_cons.2 hd)]
  subst huv
  obtain ⟨hcd, hst⟩ := List.cons.inj (List.append_cancel_left h)
  exact ⟨rfl, hcd, hst⟩

/-! ### Trimmed texts -/

structure Trimmed (t : Text) : Prop where
  head : ∀ c ∈ t.head?, isBlank c = false
  last : ∀ c ∈ t.getLast?, isBlank c = false

theorem trimRight_eq_rdropWhile (t : Text) : trimRight t = t.rdropWhile isBlank := rfl

theorem trimRight_eq_self {t : Text} (h : ∀ c ∈ t.getLast?, isBlank c = false) :
    trimRight t = t := by
  rw [trimRight_eq_rdropWhile, List.rdropWhile_eq_self_iff]
  intro hne
  rw [h _ (List.getLast?_eq_some_getLast hne)]
  decide

theorem trimRight_append_blanks {r : Text} (t : Text) (hr : ∀ c ∈ r, isBlank c = true) :
    trimRight (t ++ r) = trimRight t := by
  induction r using List.reverseRecOn with
  | nil => rw [List.append_nil]
  | append_singleton r c ih =>
    have hc : isBlank c = true := hr c (by simp)
    rw [trimRight_eq_rdropWhile, ← List.append_assoc, List.rdropWhile_concat_pos _ _ _ hc]
    exact ih fun d hd => hr d (by simp [hd])

theorem exists_trimRight (t : Text) :
    ∃ r, (∀ c ∈ r, isBlank c = true) ∧ t = trimRight t ++ r ∧
      ∀ c ∈ (trimRight t).getLast?, isBlank c = false := by
  refine ⟨t.rtakeWhile isBlank, fun c hc => List.mem_rtakeWhile_imp hc, ?_, ?_⟩
  · exact List.rdropWhile_append_rtakeWhile.symm
  · intro c hc
    obtain ⟨hne, rfl⟩ := List.mem_getLast?_eq_getLast hc
    exact Bool.eq_false_iff.2 (List.rdropWhile_last_not isBlank t hne)

theorem isPrefix_trim {t : Text} (h : Stops isBlank t) : trim t <+: t := by
  obtain ⟨r, -, hright, -⟩ := exists_trimRight t
  have hleft : trimLeft t = t := dropWhile_append_of_stops (w := []) (by simp) h
  exact ⟨r, by rw [trim, hleft, ← hright]⟩

theorem head?_trimRight {t : Text} (h : ∀ c ∈ t.head?, isBlank c = false) :
    (trimRight t).head? = t.head? := by
  obtain ⟨r, hr, heq, -⟩ := exists_trimRight t
  cases hright : trimRight t with
  | nil =>
    rw [hright, List.nil_append] at heq
    cases t with
    | nil => rfl
    | cons c t =>
      have hc : isBlank c = true := hr c (by rw [← heq]; simp)
      rw [h c rfl] at hc
      exact absurd hc (by decide)
  | cons c u =>
    rw [hright] at heq
    rw [heq]
    rfl

theorem head?_trim {c : CodePoint} (t : Text) (hc : isBlank c = false) :
    (trim (c :: t)).head? = some c := by
  have hleft : trimLeft (c :: t) = c :: t := by simp [trimLeft, hc]
  have hhead : ∀ d ∈ (c :: t).head?, isBlank d = false := by simpa using hc
  rw [trim, hleft, head?_trimRight hhead]
  rfl

theorem trim_append_append {l t r : Text} (hl : ∀ c ∈ l, isBlank c = true) (ht : Trimmed t)
    (hr : ∀ c ∈ r, isBlank c = true) : trim (l ++ t ++ r) = t := by
  cases t with
  | nil =>
    have hblank : ∀ c ∈ l ++ [] ++ r, isBlank c = true := by
      intro c hc
      rw [List.append_nil, List.mem_append] at hc
      exact hc.elim (hl c) (hr c)
    have hleft : trimLeft (l ++ [] ++ r) = [] := List.dropWhile_eq_nil_iff.2 hblank
    rw [trim, hleft]
    rfl
  | cons c t =>
    have hc : isBlank c = false := ht.head c rfl
    have hleft : trimLeft (l ++ (c :: t) ++ r) = (c :: t) ++ r := by
      rw [trimLeft, List.append_assoc]
      exact dropWhile_append_of_stops hl (stops_cons.2 hc)
    rw [trim, hleft, trimRight_append_blanks _ hr]
    exact trimRight_eq_self ht.last

theorem trim_eq_self {t : Text} (ht : Trimmed t) : trim t = t := by
  simpa using trim_append_append (l := []) (r := []) (by simp) ht (by simp)

theorem exists_trim (t : Text) :
    ∃ l r, (∀ c ∈ l, isBlank c = true) ∧ (∀ c ∈ r, isBlank c = true) ∧
      t = l ++ trim t ++ r ∧ Trimmed (trim t) := by
  obtain ⟨r, hr, hright, hlast⟩ := exists_trimRight (trimLeft t)
  refine ⟨t.takeWhile isBlank, r, fun c hc => List.mem_takeWhile_imp hc, hr, ?_, ?_, hlast⟩
  · have hleft : t = t.takeWhile isBlank ++ trimLeft t :=
      List.takeWhile_append_dropWhile.symm
    rw [List.append_assoc, trim, ← hright, ← hleft]
  · intro c hc
    have hstop : Stops isBlank (trimRight (trimLeft t) ++ r) := by
      rw [← hright]
      exact stops_dropWhile isBlank t
    have hhead : (trimRight (trimLeft t)).head? = some c := hc
    refine hstop c ?_
    rw [List.head?_append, hhead]
    rfl

/-- Blanks around a text make no difference. -/
theorem trim_blanks {l r : Text} (hl : ∀ c ∈ l, isBlank c = true)
    (hr : ∀ c ∈ r, isBlank c = true) (t : Text) : trim (l ++ t ++ r) = trim t := by
  obtain ⟨l', r', hl', hr', ht, htrimmed⟩ := exists_trim t
  have hshape : l ++ t ++ r = (l ++ l') ++ trim t ++ (r' ++ r) := by
    conv_lhs => rw [ht]
    simp
  rw [hshape]
  refine trim_append_append (fun c hc => ?_) htrimmed fun c hc => ?_
  · exact (List.mem_append.1 hc).elim (hl c) (hl' c)
  · exact (List.mem_append.1 hc).elim (hr' c) (hr c)

theorem countP_trim (t : Text) :
    (trim t).countP (fun c => !isBlank c) = t.countP fun c => !isBlank c := by
  obtain ⟨l, r, hl, hr, ht, -⟩ := exists_trim t
  have hnone : ∀ u : Text, (∀ c ∈ u, isBlank c = true) → u.countP (fun c => !isBlank c) = 0 :=
    fun u hu => List.countP_eq_zero.2 fun c hc => by simp [hu c hc]
  have hcount := congrArg (List.countP fun c => !isBlank c) ht
  rw [List.countP_append, List.countP_append, hnone l hl, hnone r hr] at hcount
  omega

theorem trimmed_trim (t : Text) : Trimmed (trim t) := by
  obtain ⟨l, r, -, -, -, htrimmed⟩ := exists_trim t
  exact htrimmed

theorem infix_trim (t : Text) : trim t <:+: t := by
  obtain ⟨l, r, -, -, ht, -⟩ := exists_trim t
  exact ⟨l, r, ht.symm⟩

theorem trim_eq_nil_iff {t : Text} : trim t = [] ↔ ∀ c ∈ t, isBlank c = true := by
  constructor
  · intro h
    obtain ⟨l, r, hl, hr, ht, -⟩ := exists_trim t
    rw [h, List.append_nil] at ht
    intro c hc
    rw [ht, List.mem_append] at hc
    exact hc.elim (hl c) (hr c)
  · intro h
    have hempty : Trimmed ([] : Text) := ⟨by simp, by simp⟩
    simpa using trim_append_append h hempty (r := []) (by simp)

end FlowDiagram.Text
