import FlowDiagram.Label.Basic
import FlowDiagram.Text.Digit
import FlowDiagram.Text.Substitution

/-!
# Labels from prose

A fragment of written prose may hold citations, inline tags, emphasis marks and a list bullet, and a
title starts with heading marks. `ofFragment` and `ofTitle` take these away before the text becomes a
label. Citations go first: without their brackets the bare numbers would stay.
-/

namespace FlowDiagram.Label
open FlowDiagram.Text FlowDiagram.Text.Scanner

/-! ### Marks inside the text -/

/-- A number of up to three digits in brackets, with or without a caret. -/
def numberedCitation : Scanner :=
  char '[' ++ optional '^' ++ between 1 3 isDecimalDigit ++ char ']'

/-- Anything in lenticular brackets. -/
def sourceCitation : Scanner :=
  char '【' ++ atLeast 0 (· != '】') ++ char '】'

def citation : Scanner := alternative numberedCitation sourceCitation

/-- An inline tag of up to two hundred characters between its angle brackets. -/
def tag : Scanner := char '<' ++ between 0 200 (fun c => c != '<' && c != '>') ++ char '>'

/-- Two stars, two underscores, or a backtick. -/
def emphasis : Scanner :=
  alternative (literal "**") (alternative (literal "__") (char '\x60'))

/-! ### Marks at the start -/

def isBulletSign (c : CodePoint) : Bool := (ofString "-*•+").contains c

/-- A number of up to three digits and a point or a closing parenthesis. -/
def numberedBullet : Scanner :=
  between 1 3 isDecimalDigit ++ one (fun c => c == '.' || c == ')')

def bullet : Scanner :=
  atLeast 0 isBlank ++ alternative (one isBulletSign) numberedBullet ++ atLeast 1 isBlank

def headingMarks : Scanner :=
  atLeast 0 isBlank ++ between 1 6 (· == '#') ++ atLeast 0 isBlank

/-! ### Labels -/

/-- The fragment without citations, tags and emphasis. A tag leaves a space. -/
def withoutMarks (fragment : Text) : Text :=
  substitute (emphasis.replaceBy [])
    (substitute (tag.replaceBy " ") (substitute (citation.replaceBy []) fragment))

def ofFragment (fallback fragment : Text) : Text :=
  sanitize fallback (bullet.strip (withoutMarks fragment))

def ofTitle (fallback title : Text) : Text := ofFragment fallback (headingMarks.strip title)

end FlowDiagram.Label
