import FlowDiagram.Text.Blank
import FlowDiagram.Text.Scanner

/-!
# Fenced blocks

A fence is three backticks. `unfence` takes a fence off that encloses the whole text, and
`firstBlock` finds the code of the first closed block in a reply that may hold prose around it. A tag
such as a language name may follow the opening fence.
-/

namespace FlowDiagram.Code
open FlowDiagram.Text FlowDiagram.Text.Scanner

def fence : Text := "```"

/-- The characters of a tag: ASCII letters and digits, underscore and hyphen. -/
def isTagChar (c : CodePoint) : Bool := c.isAsciiLetter || c.isAsciiDigit || c == '_' || c == '-'

/-! ### A fence around the text -/

/-- A fence with its tag, up to the line end if there is one. -/
def openingFence : Scanner :=
  literal fence ++ atLeast 0 isTagChar ++ atLeast 0 isGap ++ optional '\n'

/-- Takes off a fence that ends the text, and the line end before it. -/
def dropClosingFence (t : Text) : Text :=
  if ("\n" ++ fence).isSuffixOf t then t.take (t.length - 4)
  else if fence.isSuffixOf t then t.take (t.length - 3)
  else t

/-- The trimmed text, without a fence at its start and one at its end. -/
def unfence (t : Text) : Text := trim (dropClosingFence (openingFence.strip (trim t)))

/-! ### A block in a reply -/

/-- A tag that stands alone on the line of its fence. Code may also start on that line. -/
def tagLine : Scanner := atLeast 0 isTagChar ++ atLeast 0 isGap ++ char '\n'

/-- The trimmed code between the first fence and the next, where the first is closed. -/
def closedBlock? (reply : Text) : Option Text := do
  let (_, inside) ← cutAt? fence reply
  let (code, _) ← cutAt? fence (tagLine.strip inside)
  return trim code

/-- The first closed block of a reply. A reply without one is code as a whole. -/
def firstBlock (reply : Text) : Text := (closedBlock? reply).getD (unfence reply)

end FlowDiagram.Code
