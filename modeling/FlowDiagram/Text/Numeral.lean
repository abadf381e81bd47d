import FlowDiagram.Text.Blank
import FlowDiagram.Text.Digit

/-!
# Numerals

A numeral is an integer as a person writes it: perhaps a sign, then decimal digits of any script with
single underscores between them, at most 4300 digits. Blanks around it do not count, except that the
four information separators are no blanks here.
-/

namespace FlowDiagram.Text

/-- The most digits that a numeral may have. -/
def maxDigits : Nat := 4300

/-- A blank that may surround a numeral. -/
def isNumeralBlank (c : CodePoint) : Bool := isBlank c && !(28 ≤ c.val && c.val ≤ 31)

/-- The values of the digits, if they are digits with single underscores between them. -/
def digitValues? : Text → Option (List Nat)
  | [] => none
  | [c] => (digitValue? c).map fun v => [v]
  | c :: d :: t => do
    let value ← digitValue? c
    let values ← if d == '_' then digitValues? t else digitValues? (d :: t)
    return value :: values

/-- The number with the given decimal digits, the highest first. -/
def ofDigits (digits : List Nat) : Nat := digits.foldl (fun n d => 10 * n + d) 0

def readNat? (t : Text) : Option Nat :=
  (digitValues? t).bind fun digits =>
    if digits.length ≤ maxDigits then some (ofDigits digits) else none

def readInt? (t : Text) : Option Int :=
  match dropWhileRight isNumeralBlank (t.dropWhile isNumeralBlank) with
  | [] => none
  | c :: digits =>
    if c == '-' then (readNat? digits).map fun n => -(n : Int)
    else (readNat? (if c == '+' then digits else c :: digits)).map fun n => (n : Int)

end FlowDiagram.Text
