import FlowDiagram.Text.Printable

/-!
# Quoted text

A quoted text stands between single quotes, or between double ones if it holds single quotes and no
double ones. A backslash comes before a backslash and before the quote sign; line feed, carriage
return and tab are written with a letter, and every other character that cannot be printed with its
number in two, four or eight hexadecimal digits.
-/

namespace FlowDiagram.Text

def hexDigit (n : Nat) : CodePoint := CodePoint.ofNat (if n < 10 then 48 + n else 87 + n)

/-- The last `width` hexadecimal digits of a number. -/
def hexDigits : (width n : Nat) → Text
  | 0, _ => []
  | width + 1, n => hexDigits width (n / 16) ++ [hexDigit (n % 16)]

def numbered (n : Nat) : Text :=
  if n < 0x100 then "\\x" ++ hexDigits 2 n
  else if n < 0x10000 then "\\u" ++ hexDigits 4 n
  else "\\U" ++ hexDigits 8 n

/-- How a character is written between the given quote signs. -/
def escaped (quote c : CodePoint) : Text :=
  if c == quote || c == '\\' then ['\\', c]
  else if c == '\n' then "\\n"
  else if c == '\r' then "\\r"
  else if c == '\t' then "\\t"
  else if isPrintable c then [c]
  else numbered c.val

def quoteSign (t : Text) : CodePoint :=
  if t.any (· == '\x27') && !t.any (· == '\x22') then '\x22' else '\x27'

def quoted (t : Text) : Text :=
  quoteSign t :: t.flatMap (escaped (quoteSign t)) ++ [quoteSign t]

end FlowDiagram.Text
