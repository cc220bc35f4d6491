import Dartify.Text.Hex
import Dartify.Toml.Scan

/-! Numbers, truth values and dates. Of these only the form matters, and that a number is in
range. -/
namespace Dartify.Toml

open Scan

def isDigit (c : Char) : Bool := '0' ≤ c && c ≤ '9'

/-! ## Numbers -/

/-- Digits with single underscores between them. -/
def digits (test : Char → Bool) : Scan (List Char) := do
  let first ← one test
  let rest ← many do
    match ← get with
    | '_' :: c :: cs =>
      if test c then
        set cs
        return some c
      else return none
    | c :: cs =>
      if test c then
        set cs
        return some c
      else return none
    | [] => return none
  return first :: rest

def sign : Scan Bool := do
  if ← accept "-" then return true
  let _ ← accept "+"
  return false

/-- A sign and decimal digits without a leading zero. -/
def signedDigits : Scan (Bool × List Char) := do
  let negative ← sign
  if (← peek) = some '0' then
    char '0'
    return (negative, ['0'])
  else return (negative, ← digits isDigit)

def readDecimal (ds : List Char) : Nat :=
  ds.foldl (fun n c => n * 10 + (c.toNat - '0'.toNat)) 0

/-- Whole numbers have 64 bits, one of them for the sign. -/
def bound : Nat := 9223372036854775808

def integer : Scan Unit := do
  if ← accept "0x" then
    match Text.readHex (← digits Text.isHexDigit) with
    | some n => check (n < bound)
    | none => failure
  else if ← accept "0o" then
    let ds ← digits fun c => '0' ≤ c && c ≤ '7'
    check (ds.foldl (fun n c => n * 8 + (c.toNat - '0'.toNat)) 0 < bound)
  else if ← accept "0b" then
    let ds ← digits fun c => c = '0' || c = '1'
    check (ds.foldl (fun n c => n * 2 + (c.toNat - '0'.toNat)) 0 < bound)
  else
    let (negative, ds) ← signedDigits
    let n := readDecimal ds
    check (if negative then n ≤ bound else n < bound)

/-- Whether a decimal, given by its significant digits and the power of ten of the last of them,
rounds to a double. -/
def inRange (ds : List Char) (exponent : Int) : Bool :=
  let ds := ds.dropWhile (· == '0')
  let magnitude := (ds.length : Int) + exponent
  if ds.isEmpty || magnitude < 309 then true
  else if 309 < magnitude then false
  else
    let limit := Nat.pow 2 1024 - Nat.pow 2 970
    if exponent < 0 then readDecimal ds < limit * Nat.pow 10 exponent.natAbs
    else readDecimal ds * Nat.pow 10 exponent.natAbs < limit

def exponent : Scan Int := do
  let _ ← one fun c => c = 'e' || c = 'E'
  let negative ← sign
  let n := readDecimal (← digits isDigit)
  return if negative then -n else n

/-- A number with a fraction or an exponent. Only above is it bounded. -/
def float : Scan Unit := do
  let (negative, whole) ← signedDigits
  let fraction ← if ← accept "." then digits isDigit else pure []
  let scale ← if fraction.isEmpty then exponent else (·.getD 0) <$> optional exponent
  check (negative || inRange (whole ++ fraction) (scale - fraction.length))

def specialFloat : Scan Unit := do
  let _ ← sign
  word "inf" <|> word "nan"

/-! ## Dates and times -/

/-- A number of exactly so many digits between two bounds. -/
def fixed (count low high : Nat) : Scan Nat := do
  let ds := (← get).take count
  check (ds.length == count && ds.all isDigit)
  let n := readDecimal ds
  check (low ≤ n && n ≤ high)
  modify (·.drop count)
  return n

def daysIn (year month : Nat) : Nat :=
  match month with
  | 2 => if year % 4 = 0 && (year % 100 ≠ 0 || year % 400 = 0) then 29 else 28
  | 4 | 6 | 9 | 11 => 30
  | _ => 31

def date : Scan Unit := do
  let year ← fixed 4 0 9999
  char '-'
  let month ← fixed 2 1 12
  char '-'
  let day ← fixed 2 1 31
  check (day ≤ daysIn year month)

def time : Scan Unit := do
  let _ ← fixed 2 0 23
  char ':'
  let _ ← fixed 2 0 59
  char ':'
  let _ ← fixed 2 0 60
  if ← accept "." then
    let ds ← stretch isDigit
    check (!ds.isEmpty)

/-- The distance from the time of the meridian. -/
def offset : Scan Unit := do
  match ← one fun c => ['Z', 'z', '+', '-'].contains c with
  | 'Z' | 'z' => return
  | _ =>
    let _ ← fixed 2 0 23
    char ':'
    let _ ← fixed 2 0 59

def dateTime : Scan Unit := do
  if ← (do date; return true) <|> return false then
    let _ ← optional do
      let _ ← one fun c => c = 'T' || c = 't' || c = ' '
      time
      optional offset
  else time

/-- A number, a truth value or a date. -/
def plain : Scan Unit :=
  word "true" <|> word "false" <|> dateTime <|> float <|> specialFloat <|> integer

end Dartify.Toml
