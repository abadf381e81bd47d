import FlowDiagram.Decimal.Shortest
import FlowDiagram.Json.Basic
import FlowDiagram.Text.Quoted

/-!
# Displaying JSON values

A displayed value is meant for a person who reads a message. The constants are `None`, `True` and
`False`, strings are quoted, and a double has its shortest decimal: as a plain decimal with at least
one place from 0.0001 up to 16 places before the point, and otherwise with a power of ten.
-/

namespace FlowDiagram.Json
open FlowDiagram.Text

/-! ### Doubles -/

/-- The greatest number of places before the point. -/
def maxWholePlaces : Int := 16

/-- The greatest number of zeros right behind the point. -/
def maxLeadingZeros : Int := 3

def zeros (count : Nat) : Text := List.replicate count '0'

def plainDecimal (d : Decimal) : Text :=
  if d.point ≤ 0 then "0." ++ zeros (-d.point).toNat ++ d.digits
  else
    let places := d.point.toNat
    if d.digits.length ≤ places then
      d.digits ++ zeros (places - d.digits.length) ++ ".0"
    else d.digits.take places ++ "." ++ d.digits.drop places

/-- One digit, the others behind a point, and the power of ten with its sign in at least two
digits. -/
def scientific (d : Decimal) : Text :=
  let places : Text := d.digits.drop 1
  let fraction : Text := if places.isEmpty then [] else "." ++ places
  let mark : Text := if d.point < 1 then "e-" else "e+"
  let power : Text := ofNat (d.point - 1).natAbs
  d.digits.take 1 ++ fraction ++ mark ++ zeros (2 - power.length) ++ power

def displayDouble : Double → Text
  | .nan => "nan"
  | .infinite negative => if negative then "-inf" else "inf"
  | .finite negative mantissa exponent =>
    let sign : Text := if negative then "-" else []
    if mantissa = 0 then sign ++ "0.0"
    else
      let d := Decimal.shortest mantissa exponent
      sign ++
        if -maxLeadingZeros ≤ d.point ∧ d.point ≤ maxWholePlaces then plainDecimal d
        else scientific d

/-! ### Values -/

mutual

def display : Json → Text
  | null => "None"
  | bool b => if b then "True" else "False"
  | int n => ofInt n
  | real x => displayDouble x
  | text t => quoted t
  | array items => "[" ++ joinWith ", " (displayItems items) ++ "]"
  | object fields => "\x7b" ++ joinWith ", " (displayFields fields) ++ "\x7d"

def displayItems : List Json → List Text
  | [] => []
  | item :: items => display item :: displayItems items

def displayFields : List (Text × Json) → List Text
  | [] => []
  | (name, value) :: fields =>
    (quoted name ++ ": " ++ display value) :: displayFields fields

end

end FlowDiagram.Json
