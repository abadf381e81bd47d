import FlowDiagram.Proofs.Code.Cleaning
import FlowDiagram.Proofs.Text.Substitution

/-!
# Labelled arrows

What the repair of labelled arrows reads is a gap, a label and a closing part, where the closing part
starts as soon as it can. What it writes is such an arrow again, and one that is written as itself.
-/

namespace FlowDiagram.Code
open FlowDiagram.Text FlowDiagram.Text.Scanner

theorem isGap_of_isBlank {c : CodePoint} (h : isBlank c = false) : isGap c = false := by
  refine Bool.eq_false_iff.2 fun hgap => ?_
  rw [isBlank_of_isGap hgap] at h
  exact absurd h (by decide)

/-- Behind what is no gap, a gap that ends in one space is that space. -/
theorem IsGapRun.eq_space_of_append {gap s z : Text} {d : CodePoint} (h : IsGapRun gap)
    (hd : isGap d = false) (heq : s ++ gap = (z ++ [d]) ++ Text.ofString " ") :
    gap = Text.ofString " " := by
  obtain ⟨g, c, rfl, -⟩ := h.exists_eq_append
  rw [← List.append_assoc] at heq
  obtain ⟨hleft, hspace⟩ := List.append_inj' heq rfl
  rcases List.eq_nil_or_concat g with rfl | ⟨u, e, rfl⟩
  · exact hspace
  · rw [List.concat_eq_append, ← List.append_assoc] at hleft
    obtain rfl : e = d := (List.cons.inj (List.append_inj' hleft rfl).2).1
    rw [h.chars e (by simp)] at hd
    exact absurd hd (by decide)

/-! ### Closing parts -/

/-- What closes a labelled arrow: a gap, one or two dashes, perhaps a gap again, and the head. -/
structure Closing where
  gap : Text
  /-- The first of two dashes. -/
  dash : Text
  inner : Text
  isGapRun : IsGapRun gap
  gap_le : gap.length ≤ 8
  dash_eq : dash = [] ∨ dash = Text.ofString "-"
  inner_chars : ∀ c ∈ inner, isGap c = true
  inner_le : inner.length ≤ 8

namespace Closing
variable {k k' : Closing} {s t lexeme rest : Text}

/-- All but the head. -/
def body (k : Closing) : Text := k.gap ++ k.dash ++ CodePoint.ofChar '-' :: k.inner

def text (k : Closing) : Text := k.body ++ [CodePoint.ofChar '>']

/-- The closing part ` -->`. -/
def written : Closing where
  gap := " "
  dash := "-"
  inner := []
  isGapRun := ⟨by decide, by decide⟩
  gap_le := by decide
  dash_eq := Or.inr rfl
  inner_chars := by simp
  inner_le := by simp

theorem notMem_body (k : Closing) {c : CodePoint} (hgap : isGap c = false) (hc : c ≠ '-') :
    c ∉ k.body := by
  have hdash : c ∉ k.dash := by
    rcases k.dash_eq with h | h
    · simp [h]
    · simpa [h, Text.ofString] using hc
  simp [body, notMem_of_gaps hgap k.isGapRun.chars, notMem_of_gaps hgap k.inner_chars, hdash, hc]

/-- Dashes and gaps at the end of a text are found in one way only. -/
theorem eq_of_append_body (h : s ++ k.body = t ++ k'.body) :
    s ++ k.gap = t ++ k'.gap ∧ k.dash = k'.dash ∧ k.inner = k'.inner := by
  have hsplit : (s ++ k.gap ++ k.dash) ++ CodePoint.ofChar '-' :: k.inner =
      (t ++ k'.gap ++ k'.dash) ++ CodePoint.ofChar '-' :: k'.inner := by
    simpa [body] using h
  have hdash : isGap '-' = false := by decide
  obtain ⟨hleft, hinner⟩ := append_last_inj (notMem_of_gaps hdash k.inner_chars)
    (notMem_of_gaps hdash k'.inner_chars) hsplit
  rcases k.dash_eq with hk | hk <;> rcases k'.dash_eq with hk' | hk' <;>
    rw [hk, hk'] at hleft ⊢
  · exact ⟨by simpa using hleft, rfl, hinner⟩
  · rw [List.append_nil] at hleft
    exact absurd hleft (k.isGapRun.append_ne s _)
  · rw [List.append_nil] at hleft
    exact absurd hleft.symm (k'.isGapRun.append_ne t _)
  · exact ⟨List.append_cancel_right hleft, rfl, hinner⟩

theorem read_labelClosing (k : Closing) (rest : Text) :
    labelClosing.read (k.text ++ rest) = some (k.text, rest) := by
  have htext : k.text = k.gap ++ [CodePoint.ofChar '-'] ++ k.dash ++ k.inner ++
      [CodePoint.ofChar '>'] := by
    rcases k.dash_eq with h | h <;> simp [text, body, h, Text.ofString]
  have hsecond : (optional '-').read (k.dash ++ (k.inner ++ CodePoint.ofChar '>' :: rest)) =
      some (k.dash, k.inner ++ CodePoint.ofChar '>' :: rest) := by
    rw [read_optional_eq_some_iff]
    rcases k.dash_eq with h | h
    · have hdash : ∀ c ∈ k.inner, (c == CodePoint.ofChar '-') = false := by
        intro c hc
        simpa using ne_of_class (k.inner_chars c hc) (by decide)
      have hstop : Stops (· == CodePoint.ofChar '-') (k.inner ++ CodePoint.ofChar '>' :: rest) :=
        stops_append hdash (stops_cons.2 (by decide))
      rw [h]
      exact Or.inr ⟨rfl, rfl, hstop⟩
    · exact Or.inl ⟨h, by rw [h]; rfl⟩
  have hgap : (between 1 8 isGap).read (k.gap ++ CodePoint.ofChar '-' ::
      (k.dash ++ (k.inner ++ CodePoint.ofChar '>' :: rest))) = some (k.gap, _) :=
    read_between_eq_some_iff.2 ⟨rfl, k.isGapRun.chars, List.length_pos_iff.2 k.isGapRun.ne_nil,
      k.gap_le, Or.inr (stops_cons.2 (by decide))⟩
  have hinner : (between 0 8 isGap).read (k.inner ++ CodePoint.ofChar '>' :: rest) =
      some (k.inner, CodePoint.ofChar '>' :: rest) :=
    read_between_eq_some_iff.2 ⟨rfl, k.inner_chars, Nat.zero_le _, k.inner_le,
      Or.inr (stops_cons.2 (by decide))⟩
  have hdash : (char '-').read (CodePoint.ofChar '-' :: (k.dash ++ (k.inner ++
      CodePoint.ofChar '>' :: rest))) = some ([CodePoint.ofChar '-'], _) :=
    read_char_eq_some_iff.2 ⟨rfl, rfl⟩
  have hhead : (char '>').read (CodePoint.ofChar '>' :: rest) =
      some ([CodePoint.ofChar '>'], rest) :=
    read_char_eq_some_iff.2 ⟨rfl, rfl⟩
  have hdashes := read_seq_of_read (read_seq_of_read hgap hdash) hsecond
  have hread := read_seq_of_read (read_seq_of_read hdashes hinner) hhead
  rw [htext]
  simpa [labelClosing] using hread

theorem read_labelClosing_eq_some_iff :
    labelClosing.read t = some (lexeme, rest) ↔
      ∃ k : Closing, k.text = lexeme ∧ t = lexeme ++ rest := by
  constructor
  · intro h
    have hform := (labelClosing.append_of_read h).symm
    simp only [labelClosing, read_seq_eq_some_iff, read_between_eq_some_iff, read_char_eq_some_iff,
      read_optional_eq_some_iff] at h
    obtain ⟨_, _, _, ⟨_, _, inner, ⟨_, _, second, ⟨gap, _, _, ⟨-, hgap, hlow, hhigh, -⟩, ⟨rfl, -⟩,
      rfl⟩, hsecond, rfl⟩, ⟨-, hinner, -, hle, -⟩, rfl⟩, ⟨rfl, -⟩, rfl⟩ := h
    have hrun : IsGapRun gap := ⟨List.length_pos_iff.1 hlow, hgap⟩
    rcases hsecond with ⟨rfl, -⟩ | ⟨rfl, -⟩
    · exact ⟨⟨gap, "-", inner, hrun, hhigh, Or.inr rfl, hinner, hle⟩,
        by simp [text, body, Text.ofString], hform⟩
    · exact ⟨⟨gap, [], inner, hrun, hhigh, Or.inl rfl, hinner, hle⟩,
        by simp [text, body], hform⟩
  · intro h
    obtain ⟨k, rfl, rfl⟩ := h
    exact k.read_labelClosing rest

/-- Behind some of a label the closing part is read already: that much of the label is a gap. -/
theorem gap_eq_of_isPrefix (hs : CodePoint.ofChar '>' ∉ s)
    (h : k.text <+: s ++ (k'.text ++ rest)) : k.gap = s ++ k'.gap := by
  obtain ⟨r, hr⟩ := h
  have hhead : ∀ k : Closing, CodePoint.ofChar '>' ∉ k.body :=
    fun k => k.notMem_body (by decide) (by decide)
  have hsplit : k.body ++ CodePoint.ofChar '>' :: r =
      (s ++ k'.body) ++ CodePoint.ofChar '>' :: rest := by
    simpa [text] using hr
  have hbody := (append_head_inj (hhead k) (by simp [hs, hhead k']) hsplit).1
  rw [← List.nil_append k.body] at hbody
  simpa using (eq_of_append_body hbody).1

/-- Behind this label the closing part starts as soon as it can: its gap is as long as it may be, or
the label does not end in one. -/
def StartsBehind (k : Closing) (label : Text) : Prop :=
  k.gap.length = 8 ∨ ∀ c ∈ label.getLast?, isGap c = false

/-- A gap that is not yet as long as it may be can start earlier. -/
def cons (k : Closing) (c : CodePoint) (hc : isGap c = true) (h : k.gap.length < 8) : Closing where
  gap := c :: k.gap
  dash := k.dash
  inner := k.inner
  isGapRun := ⟨List.cons_ne_nil _ _, List.forall_mem_cons.2 ⟨hc, k.isGapRun.chars⟩⟩
  gap_le := h
  dash_eq := k.dash_eq
  inner_chars := k.inner_chars
  inner_le := k.inner_le

theorem read_cons_ne_none (k : Closing) {c : CodePoint} (hc : isGap c = true)
    (h : k.gap.length < 8) (rest : Text) : labelClosing.read (c :: (k.text ++ rest)) ≠ none := by
  have hread := (k.cons c hc h).read_labelClosing rest
  have htext : (k.cons c hc h).text ++ rest = c :: (k.text ++ rest) := by
    simp [text, body, cons]
  rw [← htext, hread]
  exact Option.some_ne_none _

theorem StartsBehind.cons {c : CodePoint} {label : Text} (h : k.StartsBehind label)
    (hread : labelClosing.read (c :: (label ++ k.text ++ rest)) = none) :
    k.StartsBehind (c :: label) := by
  rcases h with hfull | hlast
  · exact Or.inl hfull
  · cases label with
    | cons d label => exact Or.inr (by simpa using hlast)
    | nil =>
      cases hc : isGap c with
      | false => exact Or.inr (by simpa using hc)
      | true =>
        refine Or.inl (Nat.le_antisymm k.gap_le (Nat.not_lt.1 fun hlt => ?_))
        exact k.read_cons_ne_none hc hlt rest (by simpa using hread)

theorem StartsBehind.of_cons {c : CodePoint} {label : Text} (h : k.StartsBehind (c :: label)) :
    k.StartsBehind label :=
  h.imp_right fun hlast d hd => hlast d (List.mem_getLast?_cons hd)

/-- No closing part starts within a label behind which it starts as soon as it can. -/
theorem StartsBehind.read_eq_none {c : CodePoint} {label : Text}
    (h : k.StartsBehind (c :: label)) (hhead : CodePoint.ofChar '>' ∉ c :: label) (rest : Text) :
    labelClosing.read (c :: (label ++ k.text ++ rest)) = none := by
  cases hread : labelClosing.read (c :: (label ++ k.text ++ rest)) with
  | none => rfl
  | some result =>
    obtain ⟨lexeme, after⟩ := result
    obtain ⟨k', rfl, hform⟩ := read_labelClosing_eq_some_iff.1 hread
    have hprefix : k'.text <+: c :: label ++ (k.text ++ rest) := by
      rw [← List.append_assoc, List.cons_append, List.cons_append, hform]
      exact List.prefix_append _ _
    have hgap := gap_eq_of_isPrefix hhead hprefix
    have hlen := congrArg List.length hgap
    rw [List.length_append, List.length_cons] at hlen
    have hle := k'.gap_le
    rcases h with hfull | hlast
    · omega
    · have hsome := List.getLast?_eq_some_getLast (List.cons_ne_nil c label)
      have hmem : (c :: label).getLast (List.cons_ne_nil c label) ∈ k'.gap := by
        rw [hgap]
        exact List.mem_append_left _ (List.getLast_mem _)
      have hclass := k'.isGapRun.chars _ hmem
      rw [hlast _ hsome] at hclass
      exact absurd hclass (by decide)

end Closing

/-! ### Labels -/

theorem restOfLabel?_of_some {most : Nat} {t closing rest : Text}
    (h : labelClosing.read t = some (closing, rest)) :
    restOfLabel? most t = some ([], closing) := by
  rw [restOfLabel?.eq_def]
  simp only [h]

theorem restOfLabel?_cons {most : Nat} {c : CodePoint} {t : Text}
    (h : labelClosing.read (c :: t) = none)
    (hc : c ≠ CodePoint.ofChar '\n' ∧ c ≠ CodePoint.ofChar '>') :
    restOfLabel? (most + 1) (c :: t) =
      (restOfLabel? most t).map fun (label, closing) => (c :: label, closing) := by
  have hchar : (c == CodePoint.ofChar '\n' || c == CodePoint.ofChar '>') = false := by
    simpa using hc
  rw [restOfLabel?.eq_def]
  simp only [h, hchar]
  rfl

/-- The rest of a label is what comes before the first closing part within its line. -/
theorem restOfLabel?_eq_some_iff {most : Nat} {t label lexeme : Text} :
    restOfLabel? most t = some (label, lexeme) ↔
      ∃ k : Closing, k.text = lexeme ∧ label ++ lexeme <+: t ∧ label.length ≤ most ∧
        (∀ c ∈ label, c ≠ CodePoint.ofChar '\n' ∧ c ≠ CodePoint.ofChar '>') ∧
        k.StartsBehind label := by
  constructor
  · intro h
    fun_induction restOfLabel? most t generalizing label with
    | case1 most t closing rest hread =>
      obtain ⟨rfl, rfl⟩ := Prod.mk.inj (Option.some.inj h)
      obtain ⟨k, rfl, rfl⟩ := Closing.read_labelClosing_eq_some_iff.1 hread
      exact ⟨k, rfl, List.prefix_append _ _, Nat.zero_le _, by simp, Or.inr (by simp)⟩
    | case2 => simp at h
    | case3 => simp at h
    | case4 => simp at h
    | case5 most c t hchar hread ih =>
      obtain ⟨⟨l, lexeme'⟩, hl, hpair⟩ := Option.map_eq_some_iff.1 h
      obtain ⟨rfl, rfl⟩ := Prod.mk.inj hpair
      obtain ⟨k, rfl, ⟨rest, rfl⟩, hlen, hall, hstarts⟩ := ih hl
      refine ⟨k, rfl, ⟨rest, rfl⟩, Nat.succ_le_succ hlen, ?_, hstarts.cons hread⟩
      intro d hd
      rcases List.mem_cons.1 hd with rfl | hd
      · simpa using hchar
      · exact hall d hd
  · intro h
    obtain ⟨k, rfl, ⟨rest, rfl⟩, hlen, hall, hstarts⟩ := h
    induction label generalizing most with
    | nil => exact restOfLabel?_of_some (k.read_labelClosing rest)
    | cons c label ih =>
      obtain ⟨most, rfl⟩ := Nat.exists_eq_succ_of_ne_zero (Nat.ne_of_gt (Nat.zero_lt_of_lt hlen))
      have hread := hstarts.read_eq_none (fun hmem => (hall _ hmem).2 rfl) rest
      have hrest : ∀ d ∈ label, d ≠ CodePoint.ofChar '\n' ∧ d ≠ CodePoint.ofChar '>' :=
        fun d hd => hall d (List.mem_cons_of_mem c hd)
      have hstep := ih (Nat.le_of_succ_le_succ hlen) hrest hstarts.of_cons
      rw [List.cons_append, List.cons_append, restOfLabel?_cons hread (hall c (by simp)), hstep]
      rfl

/-! ### Arrows -/

theorem read_labelOpening_eq_some_iff {t lexeme rest : Text} :
    labelOpening.read t = some (lexeme, rest) ↔
      ∃ gap, IsGapRun gap ∧ gap.length ≤ 8 ∧ (gap.length = 8 ∨ Stops isGap rest) ∧
        lexeme = "--" ++ gap ∧ t = lexeme ++ rest := by
  simp only [labelOpening, read_seq_eq_some_iff, read_literal_eq_some_iff,
    read_between_eq_some_iff]
  constructor
  · intro h
    obtain ⟨_, _, gap, ⟨rfl, rfl⟩, ⟨rfl, hall, hlow, hhigh, hstop⟩, rfl⟩ := h
    exact ⟨gap, ⟨List.length_pos_iff.1 hlow, hall⟩, hhigh, hstop, rfl, by simp⟩
  · intro h
    obtain ⟨gap, hgap, hhigh, hstop, rfl, rfl⟩ := h
    exact ⟨_, gap ++ rest, gap, ⟨rfl, by simp⟩,
      ⟨rfl, hgap.chars, List.length_pos_iff.2 hgap.ne_nil, hhigh, hstop⟩, rfl⟩

/-- An arrow with a label. The closing part starts as soon as it can. -/
structure LabelledArrow where
  opening : Text
  first : CodePoint
  rest : Text
  closing : Closing
  isGapRun : IsGapRun opening
  opening_le : opening.length ≤ 8
  first_starts : startsLabel first = true
  rest_le : rest.length ≤ 120
  rest_chars : ∀ c ∈ rest, c ≠ CodePoint.ofChar '\n' ∧ c ≠ CodePoint.ofChar '>'
  rest_closed : closing.StartsBehind rest

namespace LabelledArrow

def label (a : LabelledArrow) : Text := a.first :: a.rest

/-- All but the head. -/
def body (a : LabelledArrow) : Text :=
  Text.ofString "--" ++ a.opening ++ a.label ++ a.closing.body

def text (a : LabelledArrow) : Text := a.body ++ [CodePoint.ofChar '>']

/-- The one form in which an arrow with this label is written. -/
def written (a : LabelledArrow) : Text :=
  Text.ofString "-- " ++ trim a.label ++ Text.ofString " -->"

theorem text_eq (a : LabelledArrow) :
    a.text = Text.ofString "--" ++ a.opening ++ a.label ++ a.closing.text := by
  simp [text, body, Closing.text]

theorem isBlank_first (a : LabelledArrow) : isBlank a.first = false :=
  (startsLabel_iff.1 a.first_starts).1

theorem head_notMem_body (a : LabelledArrow) : CodePoint.ofChar '>' ∉ a.body := by
  have hfirst : CodePoint.ofChar '>' ≠ a.first :=
    (startsLabel_iff.1 a.first_starts).2.1.symm
  have hrest : CodePoint.ofChar '>' ∉ a.rest := fun hmem => (a.rest_chars _ hmem).2 rfl
  have hclosing := a.closing.notMem_body (c := CodePoint.ofChar '>') (by decide) (by decide)
  simp [body, label, Text.ofString, hfirst, hrest, hclosing, a.isGapRun.head_notMem]

theorem lineFeed_notMem_text (a : LabelledArrow) : CodePoint.ofChar '\n' ∉ a.text := by
  have hfirst : CodePoint.ofChar '\n' ≠ a.first :=
    (ne_of_class (p := isBlank) (by decide) a.isBlank_first)
  have hrest : CodePoint.ofChar '\n' ∉ a.rest := fun hmem => (a.rest_chars _ hmem).1 rfl
  have hclosing := a.closing.notMem_body (c := CodePoint.ofChar '\n') (by decide) (by decide)
  simp [text, body, label, Text.ofString, hfirst, hrest, hclosing, a.isGapRun.lineFeed_notMem]

/-! ### Written arrows -/

theorem exists_trim (a : LabelledArrow) :
    ∃ l r, a.rest = l ++ r ∧ (∀ c ∈ r, isBlank c = true) ∧ trim a.label = a.first :: l :=
  exists_trim_label a.isBlank_first a.rest

/-- The written form is an arrow with a label itself. -/
def neat (a : LabelledArrow) : LabelledArrow where
  opening := " "
  first := a.first
  rest := (trim a.label).tail
  closing := Closing.written
  isGapRun := ⟨by decide, by decide⟩
  opening_le := by decide
  first_starts := a.first_starts
  rest_le := by
    obtain ⟨l, r, hrest, -, htrim⟩ := a.exists_trim
    have hle := a.rest_le
    rw [hrest, List.length_append] at hle
    rw [htrim, List.tail_cons]
    omega
  rest_chars := by
    obtain ⟨l, r, hrest, -, htrim⟩ := a.exists_trim
    intro c hc
    rw [htrim, List.tail_cons] at hc
    exact a.rest_chars c (by rw [hrest]; exact List.mem_append_left r hc)
  rest_closed := by
    obtain ⟨l, r, -, -, htrim⟩ := a.exists_trim
    refine Or.inr fun c hc => isGap_of_isBlank ((trimmed_trim a.label).last c ?_)
    rw [htrim, List.tail_cons] at hc
    rw [htrim]
    exact List.mem_getLast?_cons hc

theorem label_neat (a : LabelledArrow) : a.neat.label = trim a.label := by
  obtain ⟨l, r, -, -, htrim⟩ := a.exists_trim
  have hneat : a.neat.label = a.first :: (trim a.label).tail := rfl
  rw [hneat, htrim, List.tail_cons]

theorem text_neat (a : LabelledArrow) : a.neat.text = a.written := by
  rw [text_eq, label_neat]
  simp [neat, written, Closing.written, Closing.text, Closing.body, Text.ofString]

theorem written_neat (a : LabelledArrow) : a.neat.written = a.written := by
  rw [written, label_neat, trim_eq_self (trimmed_trim a.label), written]

/-- A written arrow ends in a character of its label that is not blank, and ` -->`. -/
theorem exists_written_eq (a : LabelledArrow) :
    ∃ z d, isBlank d = false ∧ a.written = z ++ d :: Text.ofString " -->" := by
  obtain ⟨l, r, -, -, htrim⟩ := a.exists_trim
  have hne : trim a.label ≠ [] := by simp [htrim]
  have hsplit := List.dropLast_append_getLast hne
  have hlast := (trimmed_trim a.label).last _ (List.getLast?_eq_some_getLast hne)
  generalize (trim a.label).getLast hne = d at hsplit hlast
  refine ⟨Text.ofString "-- " ++ (trim a.label).dropLast, d, hlast, ?_⟩
  rw [written, ← hsplit]
  simp

/-- An arrow that ends like a written one differs from its written form in the opening gap alone. -/
theorem written_eq_text_iff (a : LabelledArrow) {z : Text} {d : CodePoint} (hd : isBlank d = false)
    (h : a.text = z ++ d :: Text.ofString " -->") :
    a.written = a.text ↔ a.opening = Text.ofString " " := by
  have hbody : (Text.ofString "--" ++ a.opening ++ a.label) ++ a.closing.body =
      (z ++ [d]) ++ Closing.written.body := by
    have hsplit : a.body ++ [CodePoint.ofChar '>'] =
        z ++ d :: Text.ofString " --" ++ [CodePoint.ofChar '>'] := by
      rw [← text, h]
      simp [Text.ofString]
    have hcut := List.append_cancel_right hsplit
    rw [body] at hcut
    rw [hcut]
    simp [Closing.body, Closing.written, Text.ofString]
  obtain ⟨hgap, hdash, hinner⟩ := Closing.eq_of_append_body hbody
  have hspace := a.closing.isGapRun.eq_space_of_append (isGap_of_isBlank hd) hgap
  have hlabel : Text.ofString "--" ++ a.opening ++ a.label = z ++ [d] := by
    rw [hspace] at hgap
    exact List.append_cancel_right hgap
  have htrimmed : Trimmed a.label := by
    refine ⟨by simpa [label] using a.isBlank_first, fun c hc => ?_⟩
    have hlast := congrArg List.getLast? hlabel
    rw [List.getLast?_append, Option.mem_def.1 hc, List.getLast?_concat] at hlast
    obtain rfl : c = d := by simpa using hlast
    exact hd
  have hclosing : a.closing.text = Text.ofString " -->" := by
    simp [Closing.text, Closing.body, hspace, hdash, hinner, Closing.written, Text.ofString]
  have hopening : Text.ofString "-- " = Text.ofString "--" ++ Text.ofString " " := rfl
  rw [written, text_eq, trim_eq_self htrimmed, hclosing, hopening, List.append_cancel_right_eq,
    List.append_cancel_right_eq, List.append_cancel_left_eq, eq_comm]

end LabelledArrow

/-! ### The repair -/

theorem closeLabelledArrow_eq_some_iff {t lexeme x : Text} :
    closeLabelledArrow t = some (lexeme, x) ↔
      ∃ a : LabelledArrow, a.text = lexeme ∧ a.written = x ∧ lexeme <+: t := by
  constructor
  · intro h
    unfold closeLabelledArrow at h
    split at h
    · rename_i opening first after hopening
      split at h
      · rename_i hfirst
        obtain ⟨⟨rest, closing⟩, hrest, hpair⟩ := Option.map_eq_some_iff.1 h
        obtain ⟨rfl, rfl⟩ := Prod.mk.inj hpair
        obtain ⟨gap, hgap, hle, -, rfl, rfl⟩ := read_labelOpening_eq_some_iff.1 hopening
        obtain ⟨k, rfl, ⟨s, rfl⟩, hlen, hall, hlast⟩ := restOfLabel?_eq_some_iff.1 hrest
        refine ⟨⟨gap, first, rest, k, hgap, hle, hfirst, hlen, hall, hlast⟩, ?_, rfl, s, ?_⟩
        · simp [LabelledArrow.text_eq, LabelledArrow.label]
        · simp
      · simp at h
    · simp at h
  · intro h
    obtain ⟨a, rfl, rfl, s, rfl⟩ := h
    have hstop : Stops isGap (a.label ++ a.closing.text ++ s) :=
      stops_cons.2 (isGap_of_isBlank a.isBlank_first)
    have hopening : labelOpening.read (a.text ++ s) =
        some (Text.ofString "--" ++ a.opening, a.first :: (a.rest ++ a.closing.text ++ s)) :=
      read_labelOpening_eq_some_iff.2
        ⟨a.opening, a.isGapRun, a.opening_le, Or.inr hstop, rfl,
          by simp [LabelledArrow.text_eq, LabelledArrow.label]⟩
    have hrest : restOfLabel? 120 (a.rest ++ a.closing.text ++ s) =
        some (a.rest, a.closing.text) :=
      restOfLabel?_eq_some_iff.2
        ⟨a.closing, rfl, List.prefix_append _ _, a.rest_le, a.rest_chars, a.rest_closed⟩
    unfold closeLabelledArrow
    simp only [hopening, a.first_starts, hrest]
    simp [LabelledArrow.text_eq, LabelledArrow.written, LabelledArrow.label]

/-- What has been written is read again as itself. -/
theorem closeLabelledArrow_written (a : LabelledArrow) :
    closeLabelledArrow a.written = some (a.written, a.written) :=
  closeLabelledArrow_eq_some_iff.2
    ⟨a.neat, a.text_neat, a.written_neat, List.prefix_rfl⟩

end FlowDiagram.Code
