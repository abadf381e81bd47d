/-!
# Doubles

A double is a number with a binary mantissa of 53 bits. A finite one is held as the natural number
and the power of two whose product it is, in the one form in which the mantissa fills its 53 bits or
the exponent is the least. `ofDecimal` rounds a decimal number to the nearest double, and a number
half way between two to the one with the even mantissa.
-/

namespace FlowDiagram

inductive Double
  | nan
  | infinite (negative : Bool)
  | finite (negative : Bool) (mantissa : Nat) (exponent : Int)
  deriving DecidableEq

namespace Double

def minExponent : Int := -1074

def maxExponent : Int := 971

def isZero : Double → Bool
  | finite _ mantissa _ => mantissa == 0
  | _ => false

/-! ### Rounding -/

/-- The natural number nearest to a quotient; of two equally near the even one. -/
def roundQuotient (num den : Nat) : Nat :=
  let q := num / den
  let r := num % den
  if 2 * r < den then q else if den < 2 * r then q + 1 else q + q % 2

/-- The exponent `k` with `2 ^ k ≤ num / den < 2 ^ (k + 1)`. -/
def binaryOrder (num den : Nat) : Int :=
  let k : Int := (num.log2 : Int) - (den.log2 : Int)
  if den * Nat.pow 2 k.toNat ≤ num * Nat.pow 2 (-k).toNat then k else k - 1

/-- The double nearest to a positive quotient. -/
def ofQuotient (negative : Bool) (num den : Nat) : Double :=
  let q := max (binaryOrder num den - 52) minExponent
  let m := roundQuotient (num * Nat.pow 2 (-q).toNat) (den * Nat.pow 2 q.toNat)
  if m < Nat.pow 2 53 then
    if maxExponent < q then infinite negative else finite negative m q
  else if maxExponent < q + 1 then infinite negative
  else finite negative (Nat.pow 2 52) (q + 1)

/-- The double nearest to `digits * 10 ^ exponent`. The order of magnitude is looked at first, so
that no power is computed for a number that is far out of range. -/
def ofDecimal (negative : Bool) (digits : Nat) (exponent : Int) : Double :=
  let order := exponent + ((Nat.toDigits 10 digits).length : Int)
  if digits = 0 ∨ order < -330 then finite negative 0 minExponent
  else if 310 < order then infinite negative
  else
    ofQuotient negative (digits * Nat.pow 10 exponent.toNat) (Nat.pow 10 (-exponent).toNat)

end Double

end FlowDiagram
