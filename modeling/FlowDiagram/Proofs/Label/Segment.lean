import FlowDiagram.Label.Fragment
import FlowDiagram.Proofs.Text.Class
import FlowDiagram.Proofs.Text.Substitution

/-!
# Marks in prose

Decorated prose is plain text with complete marks anywhere in it: citations, emphasis, inline tags.
Each of the three substitutions takes its own marks away and leaves all else whole, since no mark
starts in plain text or inside a mark of another kind that is still there.
-/

namespace FlowDiagram.Label
open FlowDiagram.Text FlowDiagram.Text.Scanner

/-! ### Decorated text -/

/-- The characters of plain text: none that is structural or belongs to a mark. -/
def isPlainChar (c : CodePoint) : Bool := !isStructural c && !(ofString "<>*_`【】").contains c

/-- The characters inside a tag that can stand among other marks. -/
def isTagInside (c : CodePoint) : Bool := !(ofString "<>[]【】").contains c

inductive Emphasis
  | stars
  | underscores
  | backtick

def Emphasis.written : Emphasis → Text
  | stars => "**"
  | underscores => "__"
  | backtick => "`"

def caretMark (caret : Bool) : Text := if caret then "^" else []

/-- A piece of plain text or a complete mark. -/
inductive Segment
  | plain (t : Text) (chars : ∀ c ∈ t, isPlainChar c = true)
  /-- A number of one to three digits in brackets, perhaps behind a caret. -/
  | citedNumber (caret : Bool) (digits : Text) (chars : ∀ c ∈ digits, isDecimalDigit c = true)
      (one_le : 1 ≤ digits.length) (le_three : digits.length ≤ 3)
  | citedSource (inside : Text) (chars : ∀ c ∈ inside, c ≠ '】')
  | emphasised (mark : Emphasis)
  | inlineTag (inside : Text) (chars : ∀ c ∈ inside, isTagInside c = true)
      (length_le : inside.length ≤ 200)

namespace Segment

def written : Segment → Text
  | plain t _ => t
  | citedNumber caret digits _ _ _ => "[" ++ caretMark caret ++ digits ++ "]"
  | citedSource inside _ => "【" ++ inside ++ "】"
  | emphasised mark => mark.written
  | inlineTag inside _ _ => "<" ++ inside ++ ">"

/-- What is left when the citations are gone. -/
def uncited : Segment → Text
  | citedNumber _ _ _ _ _ | citedSource _ _ => []
  | other => other.written

/-- What is left when the tags are gone too. -/
def untagged : Segment → Text
  | inlineTag _ _ _ => " "
  | other => other.uncited

/-- What is left when all marks are gone. -/
def bare : Segment → Text
  | emphasised _ => []
  | other => other.untagged

end Segment

/-! ### Where no mark starts -/

def startsCitation (c : CodePoint) : Bool := c == '[' || c == '【'

def startsEmphasis (c : CodePoint) : Bool := c == '*' || c == '_' || c == '\x60'

theorem read_citation_of_not_starts {c : CodePoint} (h : startsCitation c = false) (t : Text) :
    citation.read (c :: t) = none := by
  simp only [startsCitation, Bool.or_eq_false_iff, beq_eq_false_iff_ne] at h
  have hnumber : numberedCitation.read (c :: t) = none :=
    read_seq_of_none (read_seq_of_none (read_seq_of_none (read_char_of_ne h.1 t) _) _) _
  rw [citation, read_alternative_of_none hnumber]
  exact read_seq_of_none (read_seq_of_none (read_char_of_ne h.2 t) _) _

theorem read_tag_of_ne {c : CodePoint} (h : c ≠ '<') (t : Text) : tag.read (c :: t) = none :=
  read_seq_of_none (read_seq_of_none (read_char_of_ne h t) _) _

theorem read_emphasis_of_not_starts {c : CodePoint} (h : startsEmphasis c = false) (t : Text) :
    emphasis.read (c :: t) = none := by
  simp only [startsEmphasis, Bool.or_eq_false_iff, beq_eq_false_iff_ne] at h
  obtain ⟨⟨hstar, hunderscore⟩, hbacktick⟩ := h
  have hstars : (literal "**").read (c :: t) = none := read_seq_of_none (read_char_of_ne hstar t) _
  have hunderscores : (literal "__").read (c :: t) = none :=
    read_seq_of_none (read_char_of_ne hunderscore t) _
  rw [emphasis, read_alternative_of_none hstars, read_alternative_of_none hunderscores]
  exact read_char_of_ne hbacktick t

theorem read_emphasis_star {c : CodePoint} (h : c ≠ '*') (t : Text) :
    emphasis.read (CodePoint.ofChar '*' :: c :: t) = none := by
  have hstars : (literal "**").read (CodePoint.ofChar '*' :: c :: t) = none := by
    cases hread : (literal "**").read (CodePoint.ofChar '*' :: c :: t) with
    | none => rfl
    | some result =>
      obtain ⟨-, hform⟩ := read_literal_eq_some_iff.1 hread
      exact absurd (List.cons.inj (List.cons.inj hform).2).1 h
  rw [emphasis, read_alternative_of_none hstars]
  rfl

section
variable {a replacement : Text}

theorem replaces_citation_self (h : ∀ c ∈ a, startsCitation c = false) :
    Replaces (citation.replaceBy replacement) a a :=
  .of_chars fun c hc s => by rw [replaceBy, read_citation_of_not_starts (h c hc), Option.map_none]

theorem replaces_tag_self (h : ∀ c ∈ a, c ≠ '<') : Replaces (tag.replaceBy replacement) a a :=
  .of_chars fun c hc s => by rw [replaceBy, read_tag_of_ne (h c hc), Option.map_none]

theorem replaces_emphasis_self (h : ∀ c ∈ a, startsEmphasis c = false) :
    Replaces (emphasis.replaceBy replacement) a a :=
  .of_chars fun c hc s => by rw [replaceBy, read_emphasis_of_not_starts (h c hc), Option.map_none]

theorem replaces_of_scan {s : Scanner} (h : ∀ t, s.read (a ++ t) = some (a, t)) (hne : a ≠ []) :
    Replaces (s.replaceBy replacement) a replacement :=
  .of_read (fun t => by rw [replaceBy, h t, Option.map_some]) hne

end

/-! ### Complete marks -/

theorem read_citedNumber (caret : Bool) {digits : Text}
    (chars : ∀ c ∈ digits, isDecimalDigit c = true) (one_le : 1 ≤ digits.length)
    (le_three : digits.length ≤ 3) (t : Text) :
    citation.read ("[" ++ caretMark caret ++ digits ++ "]" ++ t) =
      some ("[" ++ caretMark caret ++ digits ++ "]", t) := by
  have hstop : Stops isDecimalDigit ("]" ++ t) := stops_cons.2 (by decide)
  have hdigits : (between 1 3 isDecimalDigit).read (digits ++ ("]" ++ t)) =
      some (digits, "]" ++ t) :=
    read_between_eq_some_iff.2 ⟨rfl, chars, one_le, le_three, Or.inr hstop⟩
  have hcaret : (optional '^').read (caretMark caret ++ (digits ++ ("]" ++ t))) =
      some (caretMark caret, digits ++ ("]" ++ t)) := by
    rw [read_optional_eq_some_iff]
    cases caret with
    | true => exact Or.inl ⟨rfl, rfl⟩
    | false =>
      obtain ⟨d, u, rfl⟩ := List.exists_cons_of_length_pos one_le
      refine Or.inr ⟨rfl, rfl, stops_cons.2 ?_⟩
      exact beq_eq_false_iff_ne.2 (ne_of_class (chars d (by simp)) (by decide))
  have hread : numberedCitation.read ("[" ++ (caretMark caret ++ (digits ++ ("]" ++ t)))) =
      some ("[" ++ caretMark caret ++ digits ++ "]", t) :=
    read_seq_of_read (read_seq_of_read (read_seq_of_read
      (read_char_eq_some_iff.2 ⟨rfl, rfl⟩) hcaret) hdigits) (read_char_eq_some_iff.2 ⟨rfl, rfl⟩)
  rw [citation, read_alternative_eq_some_iff]
  left
  simpa only [List.append_assoc] using hread

theorem read_citedSource {inside : Text} (chars : ∀ c ∈ inside, c ≠ '】') (t : Text) :
    citation.read ("【" ++ inside ++ "】" ++ t) = some ("【" ++ inside ++ "】", t) := by
  have hinside : (atLeast 0 (· != '】')).read (inside ++ ("】" ++ t)) = some (inside, "】" ++ t) :=
    read_atLeast_eq_some_iff.2 ⟨rfl, fun c hc => by simpa using chars c hc,
      stops_cons.2 (by decide), Nat.zero_le _⟩
  have hread : sourceCitation.read ("【" ++ (inside ++ ("】" ++ t))) =
      some ("【" ++ inside ++ "】", t) :=
    read_seq_of_read (read_seq_of_read (read_char_eq_some_iff.2 ⟨rfl, rfl⟩) hinside)
      (read_char_eq_some_iff.2 ⟨rfl, rfl⟩)
  have hnumber : numberedCitation.read ("【" ++ (inside ++ ("】" ++ t))) = none :=
    read_seq_of_none (read_seq_of_none (read_seq_of_none (read_char_of_ne (by decide) _) _) _) _
  rw [citation, read_alternative_eq_some_iff]
  right
  simpa only [List.append_assoc] using And.intro hnumber hread

theorem read_inlineTag {inside : Text} (chars : ∀ c ∈ inside, isTagInside c = true)
    (length_le : inside.length ≤ 200) (t : Text) :
    tag.read ("<" ++ inside ++ ">" ++ t) = some ("<" ++ inside ++ ">", t) := by
  have hangles : ∀ c ∈ inside, (c != '<' && c != '>') = true := by
    intro c hc
    have hlt := ne_of_class (chars c hc) (show isTagInside '<' = false by decide)
    have hgt := ne_of_class (chars c hc) (show isTagInside '>' = false by decide)
    simp [hlt, hgt]
  have hinside : (between 0 200 fun c => c != '<' && c != '>').read (inside ++ (">" ++ t)) =
      some (inside, ">" ++ t) :=
    read_between_eq_some_iff.2 ⟨rfl, hangles, Nat.zero_le _, length_le,
      Or.inr (stops_cons.2 (by decide))⟩
  have hread : tag.read ("<" ++ (inside ++ (">" ++ t))) = some ("<" ++ inside ++ ">", t) :=
    read_seq_of_read (read_seq_of_read (read_char_eq_some_iff.2 ⟨rfl, rfl⟩) hinside)
      (read_char_eq_some_iff.2 ⟨rfl, rfl⟩)
  simpa only [List.append_assoc] using hread

theorem read_emphasised (mark : Emphasis) (t : Text) :
    emphasis.read (mark.written ++ t) = some (mark.written, t) := by
  cases mark <;> rfl

/-! ### The three substitutions -/

theorem startsCitation_eq_false {p : CodePoint → Bool} {c : CodePoint} (hc : p c = true)
    (hbracket : p '[' = false) (hlenticular : p '【' = false) : startsCitation c = false := by
  simp [startsCitation, ne_of_class hc hbracket, ne_of_class hc hlenticular]

theorem startsEmphasis_eq_false {p : CodePoint → Bool} {c : CodePoint} (hc : p c = true)
    (hunderscore : p '_' = false) (hbacktick : p '\x60' = false) (hstar : c ≠ '*') :
    startsEmphasis c = false := by
  simp [startsEmphasis, hstar, ne_of_class hc hunderscore, ne_of_class hc hbacktick]

theorem forall_mem_inlineTag {P : CodePoint → Prop} {inside : Text} (hopen : P '<')
    (hinside : ∀ c ∈ inside, P c) (hclose : P '>') : ∀ c ∈ "<" ++ inside ++ ">", P c := by
  intro c hc
  rcases List.mem_append.1 hc with hc | hc
  · rcases List.mem_cons.1 hc with rfl | hc
    · exact hopen
    · exact hinside c hc
  · obtain rfl := List.mem_singleton.1 hc
    exact hclose

namespace Segment

theorem replaces_citation (segment : Segment) :
    Replaces (citation.replaceBy []) segment.written segment.uncited := by
  cases segment with
  | plain t chars =>
    exact replaces_citation_self fun c hc =>
      startsCitation_eq_false (chars c hc) (by decide) (by decide)
  | citedNumber caret digits chars one_le le_three =>
    exact replaces_of_scan (read_citedNumber caret chars one_le le_three)
      (by simp [written, ofString])
  | citedSource inside chars =>
    exact replaces_of_scan (read_citedSource chars) (by simp [written, ofString])
  | emphasised mark =>
    refine replaces_citation_self ?_
    cases mark <;> decide
  | inlineTag inside chars length_le =>
    exact replaces_citation_self (forall_mem_inlineTag (by decide)
      (fun c hc => startsCitation_eq_false (chars c hc) (by decide) (by decide)) (by decide))

theorem replaces_tag (segment : Segment) :
    Replaces (tag.replaceBy " ") segment.uncited segment.untagged := by
  cases segment with
  | plain t chars => exact replaces_tag_self fun c hc => ne_of_class (chars c hc) (by decide)
  | citedNumber _ _ _ _ _ => exact replaces_tag_self (by simp [uncited])
  | citedSource _ _ => exact replaces_tag_self (by simp [uncited])
  | emphasised mark =>
    refine replaces_tag_self ?_
    cases mark <;> decide
  | inlineTag inside chars length_le =>
    exact replaces_of_scan (read_inlineTag chars length_le) (by simp [uncited, written, ofString])

theorem replaces_emphasis (segment : Segment) :
    Replaces (emphasis.replaceBy []) segment.untagged segment.bare := by
  cases segment with
  | plain t chars =>
    exact replaces_emphasis_self fun c hc =>
      startsEmphasis_eq_false (chars c hc) (by decide) (by decide)
        (ne_of_class (chars c hc) (by decide))
  | citedNumber _ _ _ _ _ => exact replaces_emphasis_self (by simp [untagged, uncited])
  | citedSource _ _ => exact replaces_emphasis_self (by simp [untagged, uncited])
  | emphasised mark =>
    refine replaces_of_scan (read_emphasised mark) ?_
    cases mark <;> decide
  | inlineTag _ _ _ =>
    exact replaces_emphasis_self (show ∀ c ∈ ofString " ", startsEmphasis c = false by decide)

end Segment

/-- A beginning that every substitution leaves as it is stays before decorated text. -/
theorem withoutMarks_append {a : Text} (hcitation : Replaces (citation.replaceBy []) a a)
    (htag : Replaces (tag.replaceBy " ") a a) (hemphasis : Replaces (emphasis.replaceBy []) a a)
    (segments : List Segment) :
    withoutMarks (a ++ segments.flatMap Segment.written) = a ++ segments.flatMap Segment.bare := by
  have huncited := hcitation.append (.flatMap Segment.replaces_citation segments)
  have huntagged := htag.append (.flatMap Segment.replaces_tag segments)
  have hbare := hemphasis.append (.flatMap Segment.replaces_emphasis segments)
  rw [withoutMarks, huncited.substitute_eq, huntagged.substitute_eq, hbare.substitute_eq]

end FlowDiagram.Label
