import FlowDiagram.Proofs.Code.Fencing
import FlowDiagram.Proofs.Text.Substitution
import FlowDiagram.Repair.Prompt

/-!
# The code in a prompt

The prompt is a template with named places, and what is put into a place is not read again: braces
in the code or in the title have no meaning. No fence comes before the one that the template opens
for the code, so that the code is the first block of the prompt and is taken out as it was put in.
-/

namespace FlowDiagram.Repair
open FlowDiagram.Text FlowDiagram.Code

/-! ### Templates -/

/-- The places of the template. -/
inductive Place
  | title
  | context
  | code
  | problems

namespace Place

def all : List Place := [title, context, code, problems]

/-- A place is marked by its name in braces. -/
def mark : Place → Text
  | title => "\x7btitle\x7d"
  | context => "\x7bcontext\x7d"
  | code => "\x7bcode\x7d"
  | problems => "\x7bproblems\x7d"

/-- Reads the mark of a place, which gives way to what the place stands for. -/
def replacer (value : Place → Text) : Replacer :=
  fun t => (all.find? fun p => p.mark.isPrefixOf t).map fun p => (p.mark, value p)

variable (value : Place → Text)

theorem replaces_mark (p : Place) : Replaces (replacer value) p.mark (value p) := by
  refine Replaces.of_read (fun s => ?_) (by cases p <;> decide)
  cases p <;> rfl

/-- A text without braces is no part of a mark. -/
theorem replaces_plain {t : Text} (h : CodePoint.ofChar '\x7b' ∉ t) :
    Replaces (replacer value) t t := by
  refine Replaces.of_chars fun c hc s => ?_
  have hne : CodePoint.ofChar '\x7b' ≠ c := fun heq => h (heq ▸ hc)
  have hmark : ∀ p ∈ all, ¬ p.mark.isPrefixOf (c :: s) = true := by
    intro p _ hstart
    have hbrace : p.mark.head? = some (CodePoint.ofChar '\x7b') := by cases p <;> rfl
    obtain ⟨u, hu⟩ := List.isPrefixOf_iff_prefix.1 hstart
    have hhead := congrArg List.head? hu
    rw [List.head?_append, hbrace] at hhead
    exact hne (Option.some.inj hhead)
  rw [replacer, List.find?_eq_none.2 hmark, Option.map_none]

end Place

/-- The template with a text in each of its places. -/
def fill (value : Place → Text) (template : Text) : Text :=
  substitute (Place.replacer value) template

/-! ### The template of the prompt -/

def promptTemplate : Text :=
  promptHead ++ Place.title.mark ++ "\nCONTEXT: " ++ Place.context.mark ++
    promptCode ++ Place.code.mark ++ promptProblems ++ Place.problems.mark ++ promptRules

def promptValue (code : Text) (problems : List Text) (title context : Option Text) : Place → Text
  | .title => textOr "Unknown" title
  | .context => textOr "No context available" context
  | .code => code
  | .problems => problemList problems

section
variable (code : Text) (problems : List Text) (title context : Option Text)

theorem fill_promptTemplate :
    fill (promptValue code problems title context) promptTemplate =
      prompt code problems title context := by
  have mark := Place.replaces_mark (promptValue code problems title context)
  have plain {t : Text} := Place.replaces_plain (promptValue code problems title context) (t := t)
  have hparts : Replaces (Place.replacer (promptValue code problems title context))
      promptTemplate (prompt code problems title context) :=
    plain (by decide +kernel) |>.append (mark .title)
      |>.append (plain (by decide +kernel)) |>.append (mark .context)
      |>.append (plain (by decide +kernel)) |>.append (mark .code)
      |>.append (plain (by decide +kernel)) |>.append (mark .problems)
      |>.append (plain (by decide +kernel))
  exact hparts.substitute_eq

/-! ### The block of the code -/

/-- The lines above the block. -/
def promptIntro : Text :=
  promptHead ++ textOr "Unknown" title ++ "\nCONTEXT: " ++
    textOr "No context available" context ++ "\n\nORIGINAL CODE:\n"

def promptFencing : Fencing := ⟨"mermaid", [], [], by decide, by decide, by decide⟩

theorem prompt_eq_wrap :
    prompt code problems title context = promptIntro title context ++ promptFencing.wrap code ++
      ("\n\nPROBLEMS FOUND:\n- " ++ problemList problems ++ promptRules) := by
  have hopen : promptCode = "\n\nORIGINAL CODE:\n" ++ (fence ++ "mermaid" ++ "\n") := rfl
  have hclose : promptProblems = "\n" ++ fence ++ "\n\nPROBLEMS FOUND:\n- " := rfl
  rw [prompt, hopen, hclose]
  simp [promptIntro, promptFencing, Fencing.wrap]

end

theorem not_fence_infix_textOr {default : Text} {t : Option Text} (hdefault : ¬ fence <:+: default)
    (ht : ∀ u ∈ t, ¬ fence <:+: u) : ¬ fence <:+: textOr default t := by
  unfold textOr
  split
  · exact hdefault
  · exact hdefault
  · exact ht _ rfl

/-- A line that shows a text behind a label has a fence only where the label or the text has one. -/
theorem not_fence_infix_line {label t rest : Text} (hlabel : ¬ fence <:+: label)
    (hlast : label.getLast? ≠ some (CodePoint.ofChar '\x60')) (ht : ¬ fence <:+: t)
    (hrest : ¬ fence <:+: rest) : ¬ fence <:+: label ++ t ++ CodePoint.ofChar '\n' :: rest := by
  intro hin
  rcases infix_or_infix_of_append_cons hin (by decide) with h | h
  · exact Fencing.not_fence_infix_append hlabel hlast ht h
  · exact hrest h

section
variable {title context : Option Text}

theorem not_fence_infix_promptIntro (htitle : ∀ t ∈ title, ¬ fence <:+: t)
    (hcontext : ∀ t ∈ context, ¬ fence <:+: t) : ¬ fence <:+: promptIntro title context := by
  have hshape : promptIntro title context =
      promptHead ++ textOr "Unknown" title ++ CodePoint.ofChar '\n' ::
        ("CONTEXT: " ++ textOr "No context available" context ++ CodePoint.ofChar '\n' ::
          "\nORIGINAL CODE:\n") := by
    simp [promptIntro, Text.ofString]
  rw [hshape]
  refine not_fence_infix_line (by decide +kernel) (by decide +kernel)
    (not_fence_infix_textOr (by decide) htitle) ?_
  exact not_fence_infix_line (by decide) (by decide)
    (not_fence_infix_textOr (by decide) hcontext) (by decide)

/-- The prompt is its template with the places filled in, and the code is its first block. -/
theorem firstBlock_prompt {code : Text} (hcode : ¬ fence <:+: code)
    (htitle : ∀ t ∈ title, ¬ fence <:+: t) (hcontext : ∀ t ∈ context, ¬ fence <:+: t)
    (problems : List Text) :
    fill (promptValue code problems title context) promptTemplate =
        prompt code problems title context ∧
      firstBlock (prompt code problems title context) = trim code := by
  refine ⟨fill_promptTemplate code problems title context, ?_⟩
  have hlast : (promptIntro title context).getLast? = some (CodePoint.ofChar '\n') := by
    rw [promptIntro, List.getLast?_append]
    rfl
  rw [prompt_eq_wrap]
  exact promptFencing.firstBlock_wrap_trim hcode (not_fence_infix_promptIntro htitle hcontext)
    (by rw [hlast]; decide) _

end

/-- The code starts like a tag line and ends in backticks, and it holds the mark of a place. -/
theorem firstBlock_prompt_marked_code :
    let code : Text := "mermaid \n    a\x7bproblems\x7d --> b %s``\n"
    let title : Text := "The ``\x7bcode\x7d`` of it"
    ¬ fence <:+: code ∧ (∀ t ∈ some title, ¬ fence <:+: t) ∧ (∀ t ∈ some [], ¬ fence <:+: t) ∧
      fill (promptValue code ["Close ```"] (some title) (some [])) promptTemplate =
        prompt code ["Close ```"] (some title) (some []) ∧
      firstBlock (prompt code ["Close ```"] (some title) (some [])) =
        Text.ofString "mermaid \n    a\x7bproblems\x7d --> b %s``" := by
  intro code title
  have hcode : ¬ fence <:+: code := by decide
  have htitle : ∀ t ∈ some title, ¬ fence <:+: t := by
    intro t ht
    obtain rfl := Option.some.inj ht
    decide
  have hcontext : ∀ t ∈ some ([] : Text), ¬ fence <:+: t := by
    intro t ht
    obtain rfl := Option.some.inj ht
    decide
  obtain ⟨hfill, hblock⟩ := firstBlock_prompt hcode htitle hcontext ["Close ```"]
  exact ⟨hcode, htitle, hcontext, hfill, hblock.trans (by decide +kernel)⟩

end FlowDiagram.Repair
