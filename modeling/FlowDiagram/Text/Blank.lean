import FlowDiagram.Text.Range

/-!
# Blanks

Blank is every character that Unicode counts as white space, and the four separators U+001C to
U+001F. A gap is a blank inside a line of code: a space or a tab. `trim` takes the blanks off both
ends, `collapse` makes one space of each run of blanks.
-/

namespace FlowDiagram.Text

/-! ### The two classes -/

/-- White space and the four information separators. -/
def blankRanges : CodeRanges :=
  [(9, 13), (28, 32), (133, 133), (160, 160), (5760, 5760), (8192, 8202), (8232, 8233),
   (8239, 8239), (8287, 8287), (12288, 12288)]

def isBlank (c : CodePoint) : Bool := blankRanges.covers c.val

/-- A space or a tab. -/
def isGap (c : CodePoint) : Bool := c == ' ' || c == '\t'

theorem isBlank_of_isGap {c : CodePoint} (h : isGap c = true) : isBlank c = true := by
  simp only [isGap, Bool.or_eq_true, beq_iff_eq] at h
  rcases h with rfl | rfl <;> decide

theorem isBlank_of_isWhitespace {c : Char} (h : c.isWhitespace = true) : isBlank c = true := by
  simp only [Char.isWhitespace, Bool.or_eq_true, decide_eq_true_eq] at h
  rcases h with ((rfl | rfl) | rfl) | rfl <;> decide

/-! ### Trimming -/

def allBlank (t : Text) : Bool := t.all isBlank

def trimLeft (t : Text) : Text := t.dropWhile isBlank

def trimRight (t : Text) : Text := dropWhileRight isBlank t

def trim (t : Text) : Text := trimRight (trimLeft t)

/-! ### Runs of blanks -/

/-- Each run of blanks becomes one space, written where the run ends. -/
def collapse : Text → Text
  | [] => []
  | c :: t =>
    if isBlank c then
      if (t.head?.map isBlank).getD false then collapse t else ' ' :: collapse t
    else c :: collapse t

end FlowDiagram.Text
