/-! Text as 16-bit code units: a character beyond the first plane is a pair of surrogates. -/
namespace Dartify.Text.Units

/-- The first half of a pair. -/
def isHigh (u : Nat) : Bool := 0xD800 ≤ u && u < 0xDC00

/-- The second half of a pair. -/
def isLow (u : Nat) : Bool := 0xDC00 ≤ u && u < 0xE000

/-- The code units of one character. -/
def ofChar (c : Char) : List Nat :=
  if c.toNat < 0x10000 then [c.toNat]
  else [0xD800 + (c.toNat - 0x10000) / 0x400, 0xDC00 + (c.toNat - 0x10000) % 0x400]

/-- The code units of a text. -/
def ofChars (cs : List Char) : List Nat := cs.flatMap ofChar

/-- The character of a pair of surrogates. -/
def pair (high low : Nat) : Char :=
  Char.ofNat (0x10000 + (high - 0xD800) * 0x400 + (low - 0xDC00))

/-- The character of a unit outside any pair; a lone surrogate becomes the replacement
character. -/
def single (u : Nat) : Char :=
  if isHigh u || isLow u then '\ufffd' else Char.ofNat u

/-- The text of a list of code units. -/
def toChars : List Nat → List Char
  | [] => []
  | [u] => [single u]
  | u :: v :: us =>
    if isHigh u && isLow v then pair u v :: toChars us else single u :: toChars (v :: us)

end Dartify.Text.Units
