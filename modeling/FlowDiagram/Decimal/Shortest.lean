import FlowDiagram.Text.Digit

/-!
# Shortest decimals

Every double is the nearest one to all the numbers of an interval around it. The shortest decimal of
a double is the one with the fewest digits in that interval, and of those the nearest. For each number
of digits only the two neighbours of the value on the decimal grid are tested: if a point of the grid
lies in the interval, so does one of these.
-/

namespace FlowDiagram
open FlowDiagram.Text

/-- The digits after a decimal point, which is then shifted right by `point` places. -/
structure Decimal where
  digits : Text
  point : Int
  deriving DecidableEq

namespace Decimal

/-- A value and the interval of the numbers that round to it, as multiples of `1 / den`. -/
structure Interval where
  low : Nat
  value : Nat
  high : Nat
  den : Nat
  /-- Whether the two ends belong to it. -/
  closed : Bool

/-- The interval of a positive double `mantissa * 2 ^ exponent`. Below a power of two the doubles lie
twice as close, except among the smallest. -/
def Interval.ofDouble (mantissa : Nat) (exponent : Int) : Interval :=
  let unit := Nat.pow 2 exponent.toNat
  let below := if mantissa = Nat.pow 2 52 ∧ -1074 < exponent then 1 else 2
  { low := (4 * mantissa - below) * unit
    value := 4 * mantissa * unit
    high := (4 * mantissa + 2) * unit
    den := 4 * Nat.pow 2 (-exponent).toNat
    closed := mantissa % 2 = 0 }

/-- How many zeros follow the decimal point of `num / den`, at most `most`. -/
def leadingZeros (den : Nat) : (most num : Nat) → Nat
  | 0, _ => 0
  | most + 1, num => if den ≤ 10 * num then 0 else leadingZeros den most (10 * num) + 1

/-- The number `p` with `10 ^ (p - 1) ≤ num / den < 10 ^ p`. -/
def decimalOrder (num den : Nat) : Int :=
  if den ≤ num then (ofNat (num / den)).length else -(leadingZeros den 400 num : Int)

/-- The point of the grid of `10 ^ (order - digits)` that lies in the interval and is nearest to its
value, as a multiple of the grid. -/
def Interval.gridPoint? (i : Interval) (order : Int) (digits : Nat) : Option Nat :=
  let up := Nat.pow 10 ((digits : Int) - order).toNat
  let step := i.den * Nat.pow 10 (order - (digits : Int)).toNat
  let below := i.value * up / step
  let isIn := fun n : Nat =>
    if i.closed then i.low * up ≤ n * step && n * step ≤ i.high * up
    else i.low * up < n * step && n * step < i.high * up
  let gap := i.value * up - below * step
  match isIn below, isIn (below + 1) with
  | false, false => none
  | true, false => some below
  | false, true => some (below + 1)
  | true, true =>
    if 2 * gap < step then some below
    else if step < 2 * gap then some (below + 1)
    else some (below + below % 2)

/-- Tries grids of more and more digits. -/
def Interval.search (i : Interval) (order : Int) : (tries digits : Nat) → Nat × Nat
  | 0, digits => (i.value / i.den, digits)
  | tries + 1, digits =>
    match i.gridPoint? order digits with
    | some n => (n, digits)
    | none => i.search order tries (digits + 1)

/-- The shortest decimal of a positive double. Seventeen digits tell all doubles apart. -/
def shortest (mantissa : Nat) (exponent : Int) : Decimal :=
  let i := Interval.ofDouble mantissa exponent
  let order := decimalOrder i.value i.den
  let found := i.search order 17 1
  let digits := ofNat found.1
  { digits := dropWhileRight (· == '0') digits
    point := order + ((digits.length : Int) - (found.2 : Int)) }

end Decimal

end FlowDiagram
