import FlowDiagram.Text.Blank
import FlowDiagram.Text.Substitution

/-!
# Cleaning of code

Cleaning repairs, in a fixed order, what generated code gets wrong most often: line-break tags become
line ends, blanks inside an arrow are closed up, and an arrow with a label gets its one written form
`-- label -->`. All other text stays as it is, and the result need not be valid.
-/

namespace FlowDiagram.Code
open FlowDiagram.Text FlowDiagram.Text.Scanner

/-! ### Lexemes -/

/-- A tag `br` in either case, open or closed in itself. -/
def breakTag : Scanner :=
  char '<' ++ one (fun c => c == 'b' || c == 'B') ++ one (fun c => c == 'r' || c == 'R') ++
    atLeast 0 isBlank ++ optional '/' ++ char '>'

/-- Two dashes, a gap and the head of an arrow. -/
def splitLongArrow : Scanner := literal "--" ++ atLeast 1 isGap ++ char '>'

/-- A dash, a gap and a short arrow. -/
def splitShortArrow : Scanner := char '-' ++ atLeast 1 isGap ++ literal "->"

/-- The two dashes before a label, with a gap of up to eight characters. -/
def labelOpening : Scanner := literal "--" ++ between 1 8 isGap

/-- What closes a labelled arrow: a gap, one or two dashes, perhaps a gap, and the head. -/
def labelClosing : Scanner :=
  between 1 8 isGap ++ char '-' ++ optional '-' ++ between 0 8 isGap ++ char '>'

/-! ### Labelled arrows -/

/-- The shortest text of at most `most` characters, none a line feed or `>`, after which the label is
closed. Gives that text and the closing lexeme. -/
def restOfLabel? : Nat → Text → Option (Text × Text)
  | most, t =>
    match labelClosing.read t with
    | some (closing, _) => some ([], closing)
    | none =>
      match most, t with
      | 0, _ => none
      | _, [] => none
      | most + 1, c :: t =>
        if c == '\n' || c == '>' then none
        else (restOfLabel? most t).map fun (label, closing) => (c :: label, closing)

/-- A label starts with neither a blank nor a dash nor the head of an arrow. -/
def startsLabel (c : CodePoint) : Bool := !isBlank c && c != '>' && c != '-'

/-- A labelled arrow becomes `-- label -->`. Its label has at most 121 characters. -/
def closeLabelledArrow : Replacer := fun t =>
  match labelOpening.read t with
  | some (opening, first :: rest) =>
    if startsLabel first then
      (restOfLabel? 120 rest).map fun (label, closing) =>
        (opening ++ first :: label ++ closing,
          "-- " ++ trim (first :: label) ++ " -->")
    else none
  | _ => none

/-! ### The repair -/

def breakLines (code : Text) : Text := substitute (breakTag.replaceBy "\n") code

/-- Arrows without gaps inside. -/
def closeArrows (code : Text) : Text :=
  substitute (splitShortArrow.replaceBy "->")
    (substitute (splitLongArrow.replaceBy "-->") code)

def clean (code : Text) : Text := substitute closeLabelledArrow (closeArrows (breakLines code))

@[simp] theorem clean_nil : clean [] = [] := rfl

end FlowDiagram.Code
