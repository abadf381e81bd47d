import FlowDiagram.Code.Markup
import FlowDiagram.Proofs.Text.Class
import FlowDiagram.Proofs.Text.Scanner
import Mathlib.Data.List.Forall2

/-!
# What counts as markup

The scanner for markup reads exactly the texts of a small grammar, each where no word character
follows. The blanks before the name may be read in two parts; how they are split does not matter.
-/

namespace FlowDiagram.Code
open FlowDiagram.Text FlowDiagram.Text.Scanner

/-! ### Names of tags -/

/-- The text is the name but for the case of its letters. -/
def SameName (name t : Text) : Prop :=
  List.Forall₂ (fun letter c => sameLetter letter c = true) name t

theorem read_tagName_eq_some_iff {name t lexeme rest : Text} :
    (tagName name).read t = some (lexeme, rest) ↔ SameName name lexeme ∧ t = lexeme ++ rest := by
  induction name generalizing t lexeme with
  | nil =>
    have hempty : tagName [] = Scanner.empty := rfl
    rw [hempty, read_empty_eq_some_iff, SameName, List.forall₂_nil_left_iff]
    constructor
    · intro hread
      obtain ⟨rfl, rfl⟩ := hread
      exact ⟨rfl, rfl⟩
    · intro hform
      obtain ⟨rfl, rfl⟩ := hform
      exact ⟨rfl, rfl⟩
  | cons letter name ih =>
    have hstep : tagName (letter :: name) = one (sameLetter letter) ++ tagName name := rfl
    rw [hstep, read_seq_eq_some_iff]
    constructor
    · intro hread
      obtain ⟨x, u, y, hx, hy, rfl⟩ := hread
      obtain ⟨c, hc, rfl, rfl⟩ := read_one_eq_some_iff.1 hx
      obtain ⟨hname, rfl⟩ := ih.1 hy
      exact ⟨List.Forall₂.cons hc hname, rfl⟩
    · intro hform
      obtain ⟨hname, rfl⟩ := hform
      cases hname with
      | cons hc hname =>
        exact ⟨_, _, _, read_one_eq_some_iff.2 ⟨_, hc, rfl, rfl⟩, ih.2 ⟨hname, rfl⟩, rfl⟩

def tagNames : List Text := ["br", "div", "span"]

/-- One of the names of the tags that code must not hold. -/
def IsTagName (t : Text) : Prop := ∃ name ∈ tagNames, SameName name t

theorem isWord_of_sameLetter {letter c : CodePoint} (hletter : letter.isAsciiLetter = true)
    (h : sameLetter letter c = true) : isWord c = true := by
  simp only [sameLetter, Bool.or_eq_true, Bool.and_eq_true, beq_iff_eq] at h
  rcases h with (rfl | ⟨-, rfl | rfl⟩) | ⟨-, rfl⟩
  · exact isWord_of_toLowerAscii hletter
  · decide +kernel
  · decide +kernel
  · decide +kernel

theorem SameName.isWord_of_mem {name t : Text} (h : SameName name t)
    (hletters : ∀ letter ∈ name, letter.isAsciiLetter = true) : ∀ c ∈ t, isWord c = true := by
  induction h with
  | nil => simp
  | cons hc hname ih =>
    intro c hmem
    rcases List.mem_cons.1 hmem with rfl | hmem
    · exact isWord_of_sameLetter (hletters _ (by simp)) hc
    · exact ih (fun letter hl => hletters letter (List.mem_cons_of_mem _ hl)) c hmem

theorem IsTagName.isWord_of_mem {t : Text} (h : IsTagName t) : ∀ c ∈ t, isWord c = true := by
  obtain ⟨name, hname, hsame⟩ := h
  have hletters : ∀ name ∈ tagNames, ∀ letter ∈ name, letter.isAsciiLetter = true := by decide
  exact hsame.isWord_of_mem (hletters name hname)

theorem IsTagName.ne_nil {t : Text} (h : IsTagName t) : t ≠ [] := by
  intro heq
  subst heq
  obtain ⟨name, hname, hsame⟩ := h
  obtain rfl := List.forall₂_nil_right_iff.1 hsame
  exact absurd hname (by decide)

/-- No character is the first letter of two of the names. -/
theorem sameLetter_unique {letter other c : CodePoint}
    (hletter : letter ∈ Text.ofString "bds") (hother : other ∈ Text.ofString "bds")
    (h : sameLetter letter c = true) (h' : sameLetter other c = true) : letter = other := by
  have hinitial : ∀ l ∈ Text.ofString "bds", sameLetter l c = true →
      (if c = 'ſ' then CodePoint.ofChar 's' else c.toLowerAscii) = l := by
    intro l hl hsame
    simp only [sameLetter, Bool.or_eq_true, Bool.and_eq_true, beq_iff_eq] at hsame
    rcases hsame with (rfl | ⟨rfl, -⟩) | ⟨rfl, rfl⟩
    · split
      · rename_i hlong
        rw [hlong] at hl
        exact absurd hl (by decide)
      · rfl
    · exact absurd hl (by decide)
    · rw [if_pos rfl]
  rw [← hinitial letter hletter h, ← hinitial other hother h']

/-- Where one name is read, no name with another first letter is. -/
theorem read_tagName_eq_none {letter other : CodePoint} {name name' t rest : Text}
    (hletter : letter ∈ Text.ofString "bds") (hother : other ∈ Text.ofString "bds")
    (hne : other ≠ letter) (h : SameName (letter :: name) t) :
    (tagName (other :: name')).read (t ++ rest) = none := by
  cases hread : (tagName (other :: name')).read (t ++ rest) with
  | none => rfl
  | some result =>
    obtain ⟨hsame, happend⟩ := read_tagName_eq_some_iff.1 hread
    cases h with
    | cons hc =>
      cases hresult : result.1 with
      | nil =>
        rw [hresult] at hsame
        exact absurd hsame (by simp [SameName])
      | cons d u =>
        rw [hresult] at hsame happend
        cases hsame with
        | cons hd =>
          obtain ⟨rfl, -⟩ := List.cons.inj happend
          exact absurd (sameLetter_unique hother hletter hd hc) hne

theorem read_prohibitedTag_eq_some_iff {t lexeme rest : Text} :
    prohibitedTag.read t = some (lexeme, rest) ↔ IsTagName lexeme ∧ t = lexeme ++ rest := by
  simp only [prohibitedTag, read_alternative_eq_some_iff, read_tagName_eq_some_iff]
  constructor
  · intro hread
    rcases hread with ⟨hname, rfl⟩ | ⟨-, ⟨hname, rfl⟩ | ⟨-, hname, rfl⟩⟩
    · exact ⟨⟨_, by simp [tagNames], hname⟩, rfl⟩
    · exact ⟨⟨_, by simp [tagNames], hname⟩, rfl⟩
    · exact ⟨⟨_, by simp [tagNames], hname⟩, rfl⟩
  · intro hform
    obtain ⟨⟨name, hname, hsame⟩, rfl⟩ := hform
    simp only [tagNames, List.mem_cons, List.not_mem_nil, or_false] at hname
    rcases hname with rfl | rfl | rfl
    · exact Or.inl ⟨hsame, rfl⟩
    · refine Or.inr ⟨?_, Or.inl ⟨hsame, rfl⟩⟩
      exact read_tagName_eq_none (by decide) (by decide) (by decide) hsame
    · refine Or.inr ⟨?_, Or.inr ⟨?_, hsame, rfl⟩⟩
      · exact read_tagName_eq_none (by decide) (by decide) (by decide) hsame
      · exact read_tagName_eq_none (by decide) (by decide) (by decide) hsame

/-! ### The start of a tag -/

/-- Up to six blanks, or a slash between two runs of up to three. -/
def IsTagGap (gap : Text) : Prop :=
  ((∀ c ∈ gap, isBlank c = true) ∧ gap.length ≤ 6) ∨
    ∃ l r, gap = l ++ ('/' : CodePoint) :: r ∧ (∀ c ∈ l ++ r, isBlank c = true) ∧
      l.length ≤ 3 ∧ r.length ≤ 3

/-- The start of a prohibited tag, through its name. -/
def IsMarkup (t : Text) : Prop :=
  ∃ gap name, IsTagGap gap ∧ IsTagName name ∧ t = ('<' : CodePoint) :: (gap ++ name)

theorem IsTagName.exists_eq_cons {name : Text} (h : IsTagName name) :
    ∃ c t, name = c :: t ∧ isBlank c = false ∧ c ≠ '/' := by
  obtain ⟨c, t, rfl⟩ := List.exists_cons_of_ne_nil h.ne_nil
  have hc : isWord c = true := h.isWord_of_mem c (by simp)
  exact ⟨c, t, rfl, isBlank_of_isWord hc, ne_of_class hc (by decide)⟩

theorem exists_of_read_markup {t lexeme rest : Text} (h : markup.read t = some (lexeme, rest)) :
    IsMarkup lexeme ∧ Stops isWord rest ∧ t = lexeme ++ rest := by
  have happend := markup.append_of_read h
  simp only [markup, read_seq_eq_some_iff, read_char_eq_some_iff, read_between_eq_some_iff,
    read_optional_eq_some_iff, read_prohibitedTag_eq_some_iff, read_notBefore_eq_some_iff] at h
  obtain ⟨_, _, _, ⟨_, _, name, ⟨_, _, r, ⟨_, _, slash, ⟨_, _, l, ⟨rfl, -⟩, ⟨-, hl, -, hllen, -⟩, rfl⟩,
    hslash, rfl⟩, ⟨-, hr, -, hrlen, -⟩, rfl⟩, ⟨hname, -⟩, rfl⟩, ⟨rfl, rfl, hstop⟩, rfl⟩ := h
  have hblank : ∀ c ∈ l ++ r, isBlank c = true := by
    intro c hc
    exact (List.mem_append.1 hc).elim (hl c) (hr c)
  refine ⟨?_, hstop, happend.symm⟩
  rcases hslash with ⟨rfl, -⟩ | ⟨rfl, -⟩
  · exact ⟨l ++ ('/' : CodePoint) :: r, name, Or.inr ⟨l, r, rfl, hblank, hllen, hrlen⟩, hname,
      by simp⟩
  · refine ⟨l ++ r, name, Or.inl ⟨hblank, ?_⟩, hname, by simp⟩
    rw [List.length_append]
    omega

/-- What the first three parts read of a gap. -/
theorem IsTagGap.exists_split {gap name : Text} (h : IsTagGap gap) (hname : IsTagName name)
    (rest : Text) :
    ∃ l slash r u v, gap = l ++ slash ++ r ∧
      (between 0 3 isBlank).read (gap ++ (name ++ rest)) = some (l, u) ∧
      (optional '/').read u = some (slash, v) ∧
      (between 0 3 isBlank).read v = some (r, name ++ rest) := by
  obtain ⟨c, t, rfl, hblank, hslash⟩ := hname.exists_eq_cons
  have hstop : Stops isBlank (c :: t ++ rest) := stops_cons.2 hblank
  simp only [read_between_eq_some_iff, read_optional_eq_some_iff]
  rcases h with ⟨hall, hlen⟩ | ⟨l, r, rfl, hall, hl, hr⟩
  · -- Without a slash the first part takes three blanks if it can.
    refine ⟨gap.take 3, [], gap.drop 3, gap.drop 3 ++ (c :: t ++ rest), _, by simp, ?_,
      Or.inr ⟨rfl, rfl, ?_⟩, ?_⟩
    · refine ⟨by rw [← List.append_assoc (gap.take 3), List.take_append_drop],
        fun d hd => hall d (List.mem_of_mem_take hd), Nat.zero_le _,
        List.length_take_le _ _, ?_⟩
      by_cases hthree : 3 ≤ gap.length
      · left
        rw [List.length_take]
        omega
      · right
        rw [List.drop_eq_nil_of_le (by omega)]
        exact hstop
    · cases hrest : gap.drop 3 with
      | nil => exact stops_cons.2 (by simpa using hslash)
      | cons d u =>
        have hd : isBlank d = true := hall d (List.mem_of_mem_drop (by rw [hrest]; simp))
        exact stops_cons.2 (by simpa using ne_of_class hd (by decide))
    · refine ⟨rfl, fun d hd => hall d (List.mem_of_mem_drop hd), Nat.zero_le _, ?_, Or.inr hstop⟩
      rw [List.length_drop]
      omega
  · refine ⟨l, "/", r, ('/' : CodePoint) :: (r ++ (c :: t ++ rest)), _, by simp [Text.ofString], ?_,
      Or.inl ⟨rfl, rfl⟩, ?_⟩
    · exact ⟨by simp, fun d hd => hall d (List.mem_append_left _ hd), Nat.zero_le _, hl,
        Or.inr (stops_cons.2 (by decide))⟩
    · exact ⟨rfl, fun d hd => hall d (List.mem_append_right _ hd), Nat.zero_le _, hr,
        Or.inr hstop⟩

theorem read_markup_eq_some_iff {t lexeme rest : Text} :
    markup.read t = some (lexeme, rest) ↔
      IsMarkup lexeme ∧ Stops isWord rest ∧ t = lexeme ++ rest := by
  refine ⟨exists_of_read_markup, ?_⟩
  intro hform
  obtain ⟨⟨gap, name, hgap, hname, rfl⟩, hstop, rfl⟩ := hform
  obtain ⟨l, slash, r, u, v, rfl, hl, hslash, hr⟩ := hgap.exists_split hname rest
  simp only [markup, read_seq_eq_some_iff]
  refine ⟨_, rest, [], ⟨_, name ++ rest, name, ⟨_, v, r, ⟨_, u, slash, ⟨_, _, l,
    read_char_eq_some_iff.2 ⟨rfl, rfl⟩, ?_, rfl⟩, hslash, rfl⟩, hr, rfl⟩,
    read_prohibitedTag_eq_some_iff.2 ⟨hname, rfl⟩, rfl⟩,
    read_notBefore_eq_some_iff.2 ⟨rfl, rfl, hstop⟩, ?_⟩
  · simpa using hl
  · simp

theorem search_markup_eq_none_iff {code : Text} :
    markup.search code = none ↔
      ∀ s x rest, code = s ++ (x ++ rest) → IsMarkup x → ¬ Stops isWord rest := by
  rw [search_eq_none_iff]
  constructor
  · intro h s x rest heq hx hstop
    subst heq
    have hread := h (x ++ rest) (List.suffix_append _ _)
    rw [read_markup_eq_some_iff.2 ⟨hx, hstop, rfl⟩] at hread
    exact absurd hread (by simp)
  · intro h u hsuffix
    obtain ⟨s, rfl⟩ := hsuffix
    cases hread : markup.read u with
    | none => rfl
    | some result =>
      obtain ⟨hx, hstop, hu⟩ := read_markup_eq_some_iff.1 hread
      exact absurd hstop (h s result.1 result.2 (by rw [hu]) hx)

/-! ### Characters -/

theorem isBlank_or_eq_of_mem_tagGap {gap : Text} (h : IsTagGap gap) {c : CodePoint} (hc : c ∈ gap) :
    isBlank c = true ∨ c = '/' := by
  rcases h with ⟨hall, -⟩ | ⟨l, r, rfl, hall, -, -⟩
  · exact Or.inl (hall c hc)
  · rcases List.mem_append.1 hc with hc | hc
    · exact Or.inl (hall c (List.mem_append_left _ hc))
    · rcases List.mem_cons.1 hc with rfl | hc
      · exact Or.inr rfl
      · exact Or.inl (hall c (List.mem_append_right _ hc))

theorem IsMarkup.dash_notMem {x : Text} (h : IsMarkup x) : CodePoint.ofChar '-' ∉ x := by
  obtain ⟨gap, name, hgap, hname, rfl⟩ := h
  intro hmem
  simp only [List.mem_cons, List.mem_append] at hmem
  rcases hmem with hmem | hmem | hmem
  · exact absurd hmem (by decide)
  · exact absurd (isBlank_or_eq_of_mem_tagGap hgap hmem) (by decide)
  · exact absurd (hname.isWord_of_mem _ hmem) (by decide)

theorem IsMarkup.last {x : Text} (h : IsMarkup x) : ∀ c ∈ x.getLast?, isBlank c = false := by
  obtain ⟨gap, name, -, hname, rfl⟩ := h
  intro c hc
  rw [← List.cons_append, List.getLast?_append_of_ne_nil _ hname.ne_nil] at hc
  exact isBlank_of_isWord (hname.isWord_of_mem c (List.mem_of_getLast? hc))

end FlowDiagram.Code
