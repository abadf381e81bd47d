import FlowDiagram.Json.Basic
import FlowDiagram.Text.Numeral

/-!
# Reading JSON

`Json.read` reads a text that holds one JSON value with blanks around it. Beside the numbers of the
standard it takes `NaN`, `Infinity` and `-Infinity`. Of two fields of one name the later gives the
value and the earlier the place. An integer may have as many digits as a numeral, and arrays and
objects may be nested `maxNesting` deep.
-/

namespace FlowDiagram.Json
open FlowDiagram.Text

inductive Container
  | array
  | object
  deriving DecidableEq

inductive ReadError
  | malformed
  | tooManyDigits (count : Nat)
  /-- The container stands inside as many others as may be nested. -/
  | tooDeep (container : Container)
  deriving DecidableEq

/-- How many arrays and objects may stand one inside the other. The decoder calls itself for each of
them until the interpreter's limit on nested calls is reached. So the number is none of the format:
it is what a limit of 1000 leaves when a reply is decoded a few calls deep, and another limit or a
deeper stack moves it. No proof uses its value. -/
def maxNesting : Nat := 987

def isJsonBlank (c : CodePoint) : Bool := c == ' ' || c == '\t' || c == '\n' || c == '\r'

def skipBlanks (t : Text) : Text := t.dropWhile isJsonBlank

def after? (c : CodePoint) : Text → Option Text
  | [] => none
  | d :: t => if d == c then some t else none

/-! ### Strings -/

def hexValue? (c : CodePoint) : Option Nat :=
  if 48 ≤ c.val ∧ c.val ≤ 57 then some (c.val - 48)
  else if 65 ≤ c.val ∧ c.val ≤ 70 then some (c.val - 55)
  else if 97 ≤ c.val ∧ c.val ≤ 102 then some (c.val - 87)
  else none

def hexPoint? (a b c d : CodePoint) : Option CodePoint := do
  return .ofNat ((((← hexValue? a) * 16 + (← hexValue? b)) * 16 + (← hexValue? c)) * 16 +
    (← hexValue? d))

/-- The code point that a letter stands for after a backslash. -/
def escapedPoint? (c : CodePoint) : Option CodePoint :=
  if c == '\x22' || c == '\\' || c == '/' then some c
  else if c == 'b' then some '\x08'
  else if c == 'f' then some '\x0c'
  else if c == 'n' then some '\n'
  else if c == 'r' then some '\r'
  else if c == 't' then some '\t'
  else none

/-- The code points of a string up to its closing quote, and the text after it. An escape with four
digits gives a code point that may be one half of a pair. -/
def readPoints : Text → Option (Text × Text)
  | [] => none
  | c :: t =>
    if c == '\x22' then some ([], t)
    else if c == '\\' then
      match t with
      | [] => none
      | letter :: t =>
        if letter == 'u' then
          match t with
          | h :: i :: j :: k :: t => do
            let point ← hexPoint? h i j k
            (readPoints t).map fun (points, rest) => (point :: points, rest)
          | _ => none
        else do
          let point ← escapedPoint? letter
          (readPoints t).map fun (points, rest) => (point :: points, rest)
    else if c.val < 32 then none
    else (readPoints t).map fun (points, rest) => (c :: points, rest)

/-- The text in which one code point stands for every two halves that make a pair. A half that stands
alone is kept. -/
def joinHalves : Text → Text
  | [] => []
  | [c] => [c]
  | c :: d :: t =>
    if c.isHighHalf && d.isLowHalf then CodePoint.ofHalves c d :: joinHalves t
    else c :: joinHalves (d :: t)

def readString (t : Text) : Except ReadError (Text × Text) :=
  match readPoints t with
  | some (points, rest) => .ok (joinHalves points, rest)
  | none => .error .malformed

/-! ### Numbers -/

/-- The ASCII digits at the start of a text and what follows them; there has to be one. -/
def readDigits (t : Text) : Option (Text × Text) :=
  let digits := t.takeWhile CodePoint.isAsciiDigit
  if digits.isEmpty then none else some (digits, t.dropWhile CodePoint.isAsciiDigit)

def digitsValue (t : Text) : Nat := ofDigits (t.map fun c => c.val - 48)

/-- The digits of the whole part: a zero alone, or a run that starts with none. -/
def readWhole (t : Text) : Option (Text × Text) :=
  match after? '0' t with
  | some rest => some ("0", rest)
  | none => readDigits t

def readFraction (t : Text) : Option (Text × Text) := (after? '.' t).bind readDigits

/-- A number with a minus sign, with a plus sign, or with none. -/
def readSigned (t : Text) : Option (Int × Text) :=
  match after? '-' t with
  | some t => (readDigits t).map fun (digits, rest) => (-(digitsValue digits : Int), rest)
  | none =>
    (readDigits ((after? '+' t).getD t)).map fun (digits, rest) => (digitsValue digits, rest)

/-- An exponent: a letter, perhaps a sign, and digits. -/
def readExponent (t : Text) : Option (Int × Text) :=
  ((after? 'e' t).or (after? 'E' t)).bind readSigned

/-- A number without its sign. Only one that has neither fraction nor exponent is an integer. -/
def readUnsigned (negative : Bool) (t : Text) : Except ReadError (Json × Text) :=
  match readWhole t with
  | none => .error .malformed
  | some (whole, t) =>
    let fraction? := readFraction t
    let fraction := (fraction?.map Prod.fst).getD []
    let t := (fraction?.map Prod.snd).getD t
    match fraction?, readExponent t with
    | none, none =>
      if whole.length ≤ maxDigits then
        let n : Int := digitsValue whole
        .ok (int (if negative then -n else n), t)
      else .error (.tooManyDigits whole.length)
    | _, exponent? =>
      let exponent := (exponent?.map Prod.fst).getD 0
      .ok (real (Double.ofDecimal negative (digitsValue (whole ++ fraction))
        (exponent - (fraction.length : Int))), (exponent?.map Prod.snd).getD t)

/-! ### Values -/

/-- The words that are values, and what they stand for. -/
def wordValues : List (Text × Json) :=
  [("null", null), ("true", bool true), ("false", bool false), ("NaN", real .nan),
   ("Infinity", real (.infinite false)), ("-Infinity", real (.infinite true))]

/-- A value that is a word or a number. -/
def readScalar (t : Text) : Except ReadError (Json × Text) :=
  match wordValues.find? fun (word, _) => word.isPrefixOf t with
  | some (word, value) => .ok (value, t.drop word.length)
  | none =>
    match after? '-' t with
    | some rest => readUnsigned true rest
    | none => readUnsigned false t

/-- The name of a field with the colon behind it, up to the value of the field. -/
def readName (t : Text) : Except ReadError (Text × Text) := do
  let (name, rest) ← ((after? '\x22' t).map readString).getD (.error .malformed)
  match after? ':' (skipBlanks rest) with
  | some rest => return (name, skipBlanks rest)
  | none => .error .malformed

mutual

/-- A value at the start of a text. The first argument bounds the number of steps, the second says
how many containers may still be opened one inside the other. -/
def readValue : (steps nesting : Nat) → Text → Except ReadError (Json × Text)
  | 0, _, _ => .error .malformed
  | _ + 1, _, [] => .error .malformed
  | steps + 1, nesting, c :: t =>
    if c == '\x22' then (readString t).map fun (string, rest) => (text string, rest)
    else if c == '[' then
      match nesting with
      | 0 => .error (.tooDeep .array)
      | nesting + 1 =>
        match after? ']' (skipBlanks t) with
        | some rest => .ok (array [], rest)
        | none =>
          (readItems steps nesting (skipBlanks t)).map fun (items, rest) => (array items, rest)
    else if c == '\x7b' then
      match nesting with
      | 0 => .error (.tooDeep .object)
      | nesting + 1 =>
        match after? '\x7d' (skipBlanks t) with
        | some rest => .ok (object [], rest)
        | none =>
          (readFields steps nesting [] (skipBlanks t)).map fun (fields, rest) =>
            (object fields, rest)
    else readScalar (c :: t)

/-- The items of an array from the next one on, through the closing bracket. -/
def readItems : (steps nesting : Nat) → Text → Except ReadError (List Json × Text)
  | 0, _, _ => .error .malformed
  | steps + 1, nesting, t => do
    let (item, rest) ← readValue steps nesting t
    match after? ']' (skipBlanks rest), after? ',' (skipBlanks rest) with
    | some rest, _ => return ([item], rest)
    | none, some rest =>
      let (items, rest) ← readItems steps nesting (skipBlanks rest)
      return (item :: items, rest)
    | none, none => .error .malformed

/-- The fields of an object from the next one on, put behind those that have been read. -/
def readFields :
    (steps nesting : Nat) → List (Text × Json) → Text →
      Except ReadError (List (Text × Json) × Text)
  | 0, _, _, _ => .error .malformed
  | steps + 1, nesting, fields, t => do
    let (name, rest) ← readName t
    let (value, rest) ← readValue steps nesting rest
    let fields := putField fields name value
    match after? '\x7d' (skipBlanks rest), after? ',' (skipBlanks rest) with
    | some rest, _ => return (fields, rest)
    | none, some rest => readFields steps nesting fields (skipBlanks rest)
    | none, none => .error .malformed

end

/-- The value that a text holds. Each character takes at most two steps. -/
def read (t : Text) : Except ReadError Json := do
  let (value, rest) ← readValue (2 * t.length + 2) maxNesting (skipBlanks t)
  if (skipBlanks rest).isEmpty then return value else .error .malformed

end FlowDiagram.Json
