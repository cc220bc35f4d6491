/-! Reading from the front of a text, with a way back when reading fails. -/
namespace Dartify.Toml

abbrev Scan := StateT (List Char) Option

namespace Scan

variable {α : Type}

def peek : Scan (Option Char) := do return (← get).head?

/-- Takes one character of a class. -/
def one (test : Char → Bool) : Scan Char := do
  match ← get with
  | c :: rest =>
    if test c then
      set rest
      return c
    else failure
  | [] => failure

def char (c : Char) : Scan Unit := do
  let _ ← one (· == c)

/-- Takes the longest run of characters of a class. -/
def stretch (test : Char → Bool) : Scan (List Char) := do
  let cs ← get
  set (cs.dropWhile test)
  return cs.takeWhile test

/-- Whether a word stands in front. -/
def sees (word : String) : Scan Bool := do return word.toList.isPrefixOf (← get)

def word (text : String) : Scan Unit := do
  if ← sees text then modify (·.drop text.length) else failure

/-- Takes a word if it stands in front, and says whether it did. -/
def accept (text : String) : Scan Bool := do
  if ← sees text then
    word text
    return true
  else return false

def check (b : Bool) : Scan Unit := if b then pure () else failure

/-- Reads items until there are no more, at most `n`. -/
def collect : Nat → Scan (Option α) → Scan (List α)
  | 0, _ => failure
  | n + 1, item => do
    match ← item with
    | some a => return a :: (← collect n item)
    | none => return []

/-- Reads items until there are no more. An item takes at least one character. -/
def many (item : Scan (Option α)) : Scan (List α) := do collect ((← get).length + 1) item

/-- Changes a value until there is nothing more to do, at most `n` times. -/
def evolve (step : α → Scan (Option α)) : Nat → α → Scan α
  | 0, _ => failure
  | n + 1, a => do
    match ← step a with
    | some b => evolve step n b
    | none => return a

end Scan

/-! ## Blanks and comments -/

def isBlank (c : Char) : Bool := c = ' ' || c = '\t'

/-- Characters that may stand in comments and strings: no controls but the tab. -/
def isPrintable (c : Char) : Bool := c = '\t' || (' ' ≤ c && c ≠ '\x7f')

open Scan

def blanks : Scan Unit := do
  let _ ← stretch isBlank

/-- A line feed, possibly with a carriage return in front. -/
def newline : Scan Unit := do
  let _ ← accept "\r"
  char '\n'

def comment : Scan Unit := do
  char '#'
  let _ ← stretch isPrintable

/-- Blanks and a comment up to the end of the line. -/
def lineEnd : Scan Unit := do
  blanks
  if (← peek) = some '#' then comment
  if (← peek).isSome then newline

/-- Blanks, comments and ends of lines. -/
def gap : Scan Unit := do
  let _ ← many do
    blanks
    match ← peek with
    | some '#' =>
      comment
      newline
      return some ()
    | some '\n' | some '\r' =>
      newline
      return some ()
    | _ => return none

end Dartify.Toml
