import Dartify.Text.Hex
import Dartify.Text.Units

/-! The value of a quoted string literal. Escapes are read by an automaton that writes 16-bit
code units, so the two halves of a pair combine however each was written. -/
namespace Dartify.Literal

/-- Where the reader stands inside an escape. -/
inductive Mode where
  | plain
  | escape
  /-- Behind `\0`, which is a null only if no digit follows. -/
  | zero
  /-- Behind an escaped carriage return, which takes a line feed with it. -/
  | carriage
  /-- Inside the digits of a fixed-length escape. -/
  | digits (letter : Char) (left : Nat) (value : Nat)
  /-- Behind `\u`. -/
  | unicode
  /-- Inside a braced code point; the digits so far, the latest first. -/
  | braced (digits : List Char)
deriving DecidableEq

/-- A character outside every escape. -/
def plain (c : Char) : List Nat × Mode :=
  if c = '\\' then ([], .escape) else (Text.Units.ofChar c, .plain)

/-- One more digit of a fixed-length escape. A character that is none leaves the letter of the
escape standing; the digits read before it are gone. -/
def digit (letter : Char) (left value : Nat) (c : Char) : List Nat × Mode :=
  match Text.hexValue c with
  | some d =>
    if left ≤ 1 then ([value * 16 + d], .plain) else ([], .digits letter (left - 1) (value * 16 + d))
  | none => (Text.Units.ofChar letter ++ (plain c).1, (plain c).2)

/-- The number in braces, with an optional plus sign in front. -/
def bracedValue (cs : List Char) : Option Nat :=
  match cs with
  | '+' :: ds => if ds = [] then none else Text.readHex ds
  | ds => if ds = [] then none else Text.readHex ds

/-- The units of a braced code point; what is no scalar value leaves the letter standing. -/
def bracedUnits (cs : List Char) : List Nat :=
  match bracedValue cs with
  | some n => if n.isValidChar then Text.Units.ofChar (Char.ofNat n) else Text.Units.ofChar 'u'
  | none => Text.Units.ofChar 'u'

/-- The character behind a backslash. -/
def escaped (c : Char) : List Nat × Mode :=
  match c with
  | 'n' => ([0x0A], .plain)
  | 't' => ([0x09], .plain)
  | 'r' => ([0x0D], .plain)
  | 'b' => ([0x08], .plain)
  | 'f' => ([0x0C], .plain)
  | 'v' => ([0x0B], .plain)
  | '0' => ([], .zero)
  | 'x' => ([], .digits 'x' 2 0)
  | 'u' => ([], .unicode)
  | '\r' => ([], .carriage)
  | '\n' => ([], .plain)
  | '\u2028' => ([], .plain)
  | '\u2029' => ([], .plain)
  | c => (Text.Units.ofChar c, .plain)

/-- The units that one character completes. -/
def step : Mode → Char → List Nat × Mode
  | .plain, c => plain c
  | .escape, c => escaped c
  | .zero, c =>
    ((if c.isDigit then Text.Units.ofChar '0' else [0]) ++ (plain c).1, (plain c).2)
  | .carriage, c => if c = '\n' then ([], .plain) else plain c
  | .digits letter left value, c => digit letter left value c
  | .unicode, c => if c = '{' then ([], .braced []) else digit 'u' 4 0 c
  | .braced ds, c => if c = '}' then (bracedUnits ds.reverse, .plain) else ([], .braced (c :: ds))

/-- The units that the end of the literal completes. -/
def finish : Mode → List Nat
  | .plain => []
  | .escape => []
  | .zero => [0]
  | .carriage => []
  | .digits letter _ _ => Text.Units.ofChar letter
  | .unicode => Text.Units.ofChar 'u'
  | .braced ds => bracedUnits ds.reverse

/-- The code units of the body of a literal. -/
def units : Mode → List Char → List Nat
  | m, [] => finish m
  | m, c :: cs => (step m c).1 ++ units (step m c).2 cs

/-- What stands between the quotes. A first or last character of several bytes is no quote, and
the body is then empty. -/
def body : List Char → List Char
  | [] => []
  | quote :: rest =>
    match rest.getLast? with
    | some last => if quote.utf8Size = 1 ∧ last.utf8Size = 1 then rest.dropLast else []
    | none => []

/-- The value of a literal that is written with its quotes. -/
def decode (literal : List Char) : List Char :=
  Text.Units.toChars (units .plain (body literal))

/-- The value of a literal as a text. -/
def valueOf (literal : String) : String := String.ofList (decode literal.toList)

end Dartify.Literal
