import FlowDiagram.Text.Blank
import FlowDiagram.Text.Scanner
import FlowDiagram.Text.Word

/-!
# Markup left in code

Generated code often keeps tags of the page it was written for. `markup` reads the start of such a
tag: the angle bracket, perhaps a slash with a few blanks around it, and one of three names, which no
word character may follow. Letters are compared without case.
-/

namespace FlowDiagram.Code
open FlowDiagram.Text FlowDiagram.Text.Scanner

/-- Equality of a small ASCII letter and a character without case. The dotless and the dotted i are
an `i`, and the long s is an `s`. -/
def sameLetter (letter c : CodePoint) : Bool :=
  c.toLowerAscii == letter || (letter == 'i' && (c == 'ı' || c == 'İ')) || (letter == 's' && c == 'ſ')

def tagName (name : Text) : Scanner :=
  name.foldr (fun letter rest => one (sameLetter letter) ++ rest) empty

/-- The names of the tags that code must not hold. -/
def prohibitedTag : Scanner :=
  alternative (tagName "br") (alternative (tagName "div") (tagName "span"))

/-- The start of a prohibited tag, through its name. -/
def markup : Scanner :=
  char '<' ++ between 0 3 isBlank ++ optional '/' ++ between 0 3 isBlank ++ prohibitedTag ++
    notBefore isWord

end FlowDiagram.Code
