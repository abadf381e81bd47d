import FlowDiagram.Text.Blank
import FlowDiagram.Text.Line
import FlowDiagram.Text.Word

/-!
# Node definitions

A line of code defines a node when it starts, after blanks, with a word and an opening bracket right
behind it. The word is the id of the node. An id that several lines define is repeated.
-/

namespace FlowDiagram.Code
open FlowDiagram.Text

/-- The brackets that open the shape of a node. -/
def isShapeOpening (c : CodePoint) : Bool := c == '[' || c == '(' || c == '\x7b'

def definedId? (line : Text) : Option Text :=
  match (trimLeft line).takeWhile isWord, (trimLeft line).dropWhile isWord with
  | c :: id, next :: _ => if isShapeOpening next then some (c :: id) else none
  | _, _ => none

/-- The ids that the lines of the code define, one for each defining line. -/
def definedIds (code : Text) : List Text := (lines code).filterMap definedId?

/-- The texts of a list, each where it occurs first. -/
def firstOccurrences : List Text → List Text
  | [] => []
  | t :: ts => t :: (firstOccurrences ts).filter (· != t)

/-- The texts that occur more than once, each where it occurs first. -/
def repeated (ts : List Text) : List Text :=
  (firstOccurrences ts).filter fun t => 1 < ts.count t

theorem mem_firstOccurrences {t : Text} {ts : List Text} : t ∈ firstOccurrences ts ↔ t ∈ ts := by
  induction ts with
  | nil => simp [firstOccurrences]
  | cons u ts ih =>
    by_cases h : t = u
    · simp [firstOccurrences, h]
    · simp [firstOccurrences, h, ih]

theorem nodup_firstOccurrences (ts : List Text) : (firstOccurrences ts).Nodup := by
  induction ts with
  | nil => exact List.nodup_nil
  | cons u ts ih =>
    refine List.nodup_cons.2 ⟨?_, ih.filter _⟩
    simp

theorem mem_repeated {t : Text} {ts : List Text} : t ∈ repeated ts ↔ 1 < ts.count t := by
  simp only [repeated, List.mem_filter, mem_firstOccurrences, decide_eq_true_eq]
  refine ⟨And.right, fun h => ⟨?_, h⟩⟩
  exact List.count_pos_iff.1 (by omega)

end FlowDiagram.Code
