import FlowDiagram.Text.Blank

/-!
# Labels

A label is the text inside a node or on an edge. `sanitize` takes away every character that has a
meaning in diagram code, writes single spaces between the words, and puts a fallback where nothing
is left. `shorten` keeps a label within a limit and ends what it cuts with three dots.
-/

namespace FlowDiagram.Label
open FlowDiagram.Text

/-- The brackets of the node shapes, the double quote, and the bar that encloses edge labels. -/
def structuralChars : Text := ['[', ']', '(', ')', '\x7b', '\x7d', '\x22', '|']

def isStructural (c : CodePoint) : Bool := structuralChars.contains c

/-- The label for a raw text: without structural characters, with single spaces between words. -/
def sanitize (fallback raw : Text) : Text :=
  let label := trim (collapse (raw.filter fun c => !isStructural c))
  if label.isEmpty then fallback else label

def ellipsis : Text := "..."

/-- The label within a limit of characters. A limit below one is none. One of at most three leaves
no room for the dots. -/
def shorten (limit : Int) (label : Text) : Text :=
  if limit ≤ 0 ∨ (label.length : Int) ≤ limit then label
  else if limit ≤ 3 then label.take limit.toNat
  else trimRight (label.take (limit - 3).toNat) ++ ellipsis

theorem shorten_eq_self {limit : Int} {label : Text}
    (h : limit ≤ 0 ∨ (label.length : Int) ≤ limit) : shorten limit label = label := by
  unfold shorten
  exact if_pos h

end FlowDiagram.Label
