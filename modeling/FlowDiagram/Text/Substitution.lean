import FlowDiagram.Text.Scanner

/-!
# Substitution

A replacer reads a lexeme at the start of a text and says what shall stand in its place.
`substitute` goes through a text from left to right and puts the replacement for each lexeme it
meets; a lexeme starts only where the one before has ended, and what is put is not read again.
-/

namespace FlowDiagram.Text

/-- Reads a lexeme at the start of a text; the second text stands in its place. -/
abbrev Replacer := Text → Option (Text × Text)

/-- The same replacement for every lexeme of a scanner. -/
def Scanner.replaceBy (scanner : Scanner) (replacement : Text) : Replacer :=
  fun t => (scanner.read t).map fun (lexeme, _) => (lexeme, replacement)

/-- Goes on with a text of which the first `skip` characters belong to the last lexeme. -/
def substituteFrom (replacer : Replacer) : Nat → Text → Text
  | _, [] => []
  | skip + 1, _ :: t => substituteFrom replacer skip t
  | 0, c :: t =>
    match replacer (c :: t) with
    | some (lexeme, replacement) =>
      replacement ++ substituteFrom replacer (lexeme.length - 1) t
    | none => c :: substituteFrom replacer 0 t

/-- Every lexeme of the text, from left to right, replaced. -/
def substitute (replacer : Replacer) (t : Text) : Text := substituteFrom replacer 0 t

theorem substituteFrom_eq (replacer : Replacer) (skip : Nat) (t : Text) :
    substituteFrom replacer skip t = substitute replacer (t.drop skip) := by
  induction skip generalizing t with
  | zero => rfl
  | succ skip ih =>
    cases t with
    | nil => rfl
    | cons c t => simpa [substituteFrom] using ih t

@[simp] theorem substitute_nil (replacer : Replacer) : substitute replacer [] = [] := rfl

theorem substitute_cons_of_none {replacer : Replacer} {c : CodePoint} {t : Text}
    (h : replacer (c :: t) = none) :
    substitute replacer (c :: t) = c :: substitute replacer t := by
  simp [substitute, substituteFrom, h]

theorem substitute_cons_of_some {replacer : Replacer} {c : CodePoint} {t lexeme replacement : Text}
    (h : replacer (c :: t) = some (lexeme, replacement)) (hne : lexeme ≠ []) :
    substitute replacer (c :: t) =
      replacement ++ substitute replacer ((c :: t).drop lexeme.length) := by
  obtain ⟨n, hn⟩ := Nat.exists_eq_succ_of_ne_zero (mt List.length_eq_zero_iff.1 hne)
  have step : substitute replacer (c :: t) =
      replacement ++ substituteFrom replacer (lexeme.length - 1) t := by
    simp only [substitute, substituteFrom, h]
  rw [step, substituteFrom_eq, hn]
  rfl

/-- A text in which the replacer reads nothing anywhere stays as it is. -/
theorem substitute_eq_self {replacer : Replacer} {t : Text}
    (h : ∀ u, u <:+ t → replacer u = none) : substitute replacer t = t := by
  induction t with
  | nil => rfl
  | cons c t ih =>
    rw [substitute_cons_of_none (h _ (List.suffix_refl _)),
      ih fun u hu => h u (hu.trans (List.suffix_cons c t))]

end FlowDiagram.Text
