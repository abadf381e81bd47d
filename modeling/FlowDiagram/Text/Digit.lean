import FlowDiagram.Text.Range

/-!
# Decimal digits

The decimal digits of Unicode 14 come in runs of ten, each from zero to nine. A digit's value is its
distance from the zero of its run.
-/

namespace FlowDiagram.Text

/-- The code points of the digits zero, one for each run of ten. -/
def zeroDigits : List Nat :=
  [48, 1632, 1776, 1984, 2406, 2534, 2662, 2790, 2918, 3046, 3174, 3302, 3430, 3558, 3664, 3792,
   3872, 4160, 4240, 6112, 6160, 6470, 6608, 6784, 6800, 6992, 7088, 7232, 7248, 42528, 43216,
   43264, 43472, 43504, 43600, 44016, 65296, 66720, 68912, 69734, 69872, 69942, 70096, 70384, 70736,
   70864, 71248, 71360, 71472, 71904, 72016, 72784, 73040, 73120, 92768, 92864, 93008, 120782,
   120792, 120802, 120812, 120822, 123200, 123632, 125264, 130032]

/-- The value of a decimal digit of any script. -/
def digitValue? (c : CodePoint) : Option Nat :=
  (zeroDigits.find? fun low => low ≤ c.val && c.val < low + 10).map (c.val - ·)

def isDecimalDigit (c : CodePoint) : Bool := (digitValue? c).isSome

theorem digitValue?_lt {c : CodePoint} {v : Nat} (h : digitValue? c = some v) : v < 10 := by
  obtain ⟨low, hz, rfl⟩ := Option.map_eq_some_iff.1 h
  have := List.find?_some hz
  simp at this
  omega

/-! ### Writing numbers -/

def ofNat (n : Nat) : Text := (Nat.toDigits 10 n).map CodePoint.ofChar

def ofInt : Int → Text
  | .ofNat n => ofNat n
  | .negSucc n => "-" ++ ofNat (n + 1)

end FlowDiagram.Text
