/-!
# Code points

A code point is a number of Unicode. The surrogates U+D800 to U+DFFF are code points although they
are no characters: an escape in a JSON string can write one half of a pair without the other, and
such a half is kept, counted and shown like any other sign. Every character is a code point, so a
character literal may stand for one.
-/

namespace FlowDiagram

/-- A number from U+0000 to U+10FFFF. -/
@[ext]
structure CodePoint where
  val : Nat
  val_lt : val < 0x110000
  deriving DecidableEq

namespace CodePoint

theorem toNat_lt_of_char (c : Char) : c.toNat < 0x110000 := by
  rcases c.valid with h | h
  · exact Nat.lt_trans h (by decide)
  · exact h.2

def ofChar (c : Char) : CodePoint := ⟨c.toNat, toNat_lt_of_char c⟩

instance : Coe Char CodePoint := ⟨ofChar⟩

/-- The code point with a number. A number beyond all of them gives the replacement character. -/
def ofNat (n : Nat) : CodePoint := if h : n < 0x110000 then ⟨n, h⟩ else ofChar '\uFFFD'

@[simp] theorem val_ofChar (c : Char) : (ofChar c).val = c.toNat := rfl

@[simp] theorem ofChar_inj {c d : Char} : ofChar c = ofChar d ↔ c = d := by
  simp [CodePoint.ext_iff, Char.toNat_inj]

theorem val_ofNat {n : Nat} (h : n < 0x110000) : (ofNat n).val = n := by simp [ofNat, h]

/-! ### Pairs of surrogates -/

def isHighHalf (c : CodePoint) : Bool := 0xD800 ≤ c.val && c.val < 0xDC00

def isLowHalf (c : CodePoint) : Bool := 0xDC00 ≤ c.val && c.val < 0xE000

/-- One half of a pair, which stands for no character as long as it stands alone. -/
def isHalf (c : CodePoint) : Bool := c.isHighHalf || c.isLowHalf

/-- The code point that two halves stand for. -/
def ofHalves (high low : CodePoint) : CodePoint :=
  ofNat (0x10000 + (high.val - 0xD800) * 0x400 + (low.val - 0xDC00))

/-! ### ASCII -/

def isAsciiDigit (c : CodePoint) : Bool := 48 ≤ c.val && c.val ≤ 57

def isAsciiLetter (c : CodePoint) : Bool :=
  (65 ≤ c.val && c.val ≤ 90) || (97 ≤ c.val && c.val ≤ 122)

/-- A letter from A to Z in lower case, and every other code point as it is. -/
def toLowerAscii (c : CodePoint) : CodePoint :=
  if h : 65 ≤ c.val ∧ c.val ≤ 90 then ⟨c.val + 32, by omega⟩ else c

end CodePoint

end FlowDiagram
