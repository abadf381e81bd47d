import FlowDiagram.Proofs.Code.Markup
import FlowDiagram.Proofs.Code.Verdict

/-!
# The first tag in the code

The code holds markup where the start of a prohibited tag stands and no word character follows. The
verdict reports this once, however many tags there are, and shows the tag that comes first.
-/

namespace FlowDiagram.Code
open FlowDiagram.Text FlowDiagram.Text.Scanner

/-- The start of a prohibited tag stands in the code behind `before`, and its name ends there. -/
def MarkupAt (code before tag : Text) : Prop :=
  IsMarkup tag ∧ ∃ rest, code = before ++ (tag ++ rest) ∧ Stops isWord rest

/-- No tag starts further to the left. -/
structure IsFirstMarkup (code before tag : Text) : Prop where
  markupAt : MarkupAt code before tag
  length_le : ∀ other tag', MarkupAt code other tag' → before.length ≤ other.length

theorem search_markup_eq_some_iff {code tag : Text} :
    markup.search code = some tag ↔ ∃ before, IsFirstMarkup code before tag := by
  rw [search_eq_some_iff]
  constructor
  · rintro ⟨before, rest, hcode, hread, hfirst⟩
    obtain ⟨htag, hstop, -⟩ := read_markup_eq_some_iff.1 hread
    refine ⟨before, ⟨htag, rest, hcode, hstop⟩, ?_⟩
    rintro other tag' ⟨htag', rest', hother, hstop'⟩
    refine hfirst other (tag' ++ rest') hother ?_
    rw [read_markup_eq_some_iff.2 ⟨htag', hstop', rfl⟩]
    exact Option.some_ne_none _
  · rintro ⟨before, ⟨htag, rest, hcode, hstop⟩, hfirst⟩
    refine ⟨before, rest, hcode, read_markup_eq_some_iff.2 ⟨htag, hstop, rfl⟩, ?_⟩
    intro other u hother hne
    obtain ⟨⟨tag', rest'⟩, hread⟩ := Option.ne_none_iff_exists'.1 hne
    obtain ⟨htag', hstop', hu⟩ := read_markup_eq_some_iff.1 hread
    exact hfirst other tag' ⟨htag', rest', by rw [hother, hu], hstop'⟩

theorem search_markup_ne_none_iff {code : Text} :
    markup.search code ≠ none ↔ ∃ before tag, MarkupAt code before tag := by
  rw [search_ne_none_iff]
  constructor
  · rintro ⟨before, tag, rest, hcode, hread⟩
    obtain ⟨htag, hstop, -⟩ := read_markup_eq_some_iff.1 hread
    exact ⟨before, tag, htag, rest, hcode, hstop⟩
  · rintro ⟨before, tag, htag, rest, hcode, hstop⟩
    exact ⟨before, tag, rest, hcode, read_markup_eq_some_iff.2 ⟨htag, hstop, rfl⟩⟩

/-- Markup is reported exactly when the code holds it, once, and with the tag that comes first. -/
theorem markup_reported (minLength : Int) (t : Text) :
    let verdict := validate minLength (some t)
    (verdict.has .prohibitedMarkup = true ↔
        ∃ before tag, MarkupAt (unfence t) before tag) ∧
      (∀ issue ∈ verdict.issues, issue.kind = .prohibitedMarkup →
        ∃ before tag, IsFirstMarkup (unfence t) before tag ∧ issue.detail? = some tag) ∧
      verdict.violations.count .prohibitedMarkup ≤ 1 := by
  intro verdict
  have hkind : (.prohibitedMarkup, markupRule) ∈ kindedRules minLength := by simp [kindedRules]
  refine ⟨?_, fun issue hissue hmarkup => ?_, ?_⟩
  · rw [has_validate_iff hkind rfl, markupRule, ne_eq, Option.map_eq_none_iff, ← ne_eq,
      search_markup_ne_none_iff]
  · have hfound := eq_some_of_mem_validate hkind hissue hmarkup
    obtain ⟨tag, hsearch, rfl⟩ := Option.map_eq_some_iff.1 hfound
    obtain ⟨before, hfirst⟩ := search_markup_eq_some_iff.1 hsearch
    exact ⟨before, tag, hfirst, rfl⟩
  · exact List.nodup_iff_count_le_one.1 (nodup_violations minLength (some t)) _

/-- A slash parts six blanks that may stand before a name, but not seven without one. -/
example : markup.search "a < \n /\t  DİV> b<br>" = some (Text.ofString "< \n /\t  DİV") ∧
    markup.search "a <       br> b<brr>" = none := by
  decide +kernel

end FlowDiagram.Code
