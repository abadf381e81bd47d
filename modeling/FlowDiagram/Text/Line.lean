import FlowDiagram.Text.Range

/-!
# Lines

A line ends at a line feed, a vertical tab, a form feed, a carriage return, one of the separators
U+001C to U+001E, next line, or a line or paragraph separator. A carriage return takes the line feed
after it along. No empty line follows the last line end.
-/

namespace FlowDiagram.Text

def lineEndRanges : CodeRanges := [(10, 13), (28, 30), (133, 133), (8232, 8233)]

def isLineEnd (c : CodePoint) : Bool := lineEndRanges.covers c.val

def lines : Text → List Text
  | [] => []
  | c :: t =>
    if isLineEnd c then
      match t with
      | [] => [[]]
      | d :: u => [] :: if c == '\r' && d == '\n' then lines u else lines (d :: u)
    else
      match lines t with
      | [] => [[c]]
      | line :: rest => (c :: line) :: rest

/-- The first line, empty for an empty text. -/
def firstLine (t : Text) : Text := (lines t).headD []

theorem lines_ne_nil {t : Text} (h : t ≠ []) : lines t ≠ [] := by
  unfold lines
  split
  · contradiction
  · split <;> split <;> exact List.cons_ne_nil _ _

end FlowDiagram.Text
