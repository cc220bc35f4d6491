import Dartify.Text.Hex
import Dartify.Toml.Scan

/-! Strings and keys. -/
namespace Dartify.Toml

open Scan

/-- The character of a code point written in so many hexadecimal digits. -/
def codePoint (digits : Nat) : Scan Char := do
  let ds := (← get).take digits
  check (ds.length == digits)
  match Text.readHex ds with
  | some n =>
    check (n < 0xD800 || (0xDFFF < n && n < 0x110000))
    modify (·.drop digits)
    return Char.ofNat n
  | none => failure

/-- What follows a backslash. -/
def escape : Scan Char := do
  match ← one fun _ => true with
  | 'b' => return '\x08'
  | 't' => return '\t'
  | 'n' => return '\n'
  | 'f' => return '\x0c'
  | 'r' => return '\r'
  | '"' => return '"'
  | '\\' => return '\\'
  | 'u' => codePoint 4
  | 'U' => codePoint 8
  | _ => failure

/-- A string on one line, in double quotes. -/
def basic : Scan (List Char) := do
  char '"'
  let body ← many do
    match ← peek with
    | some '"' => return none
    | some '\\' =>
      char '\\'
      return some (← escape)
    | _ => return some (← one isPrintable)
  char '"'
  return body

/-- A string on one line, in single quotes and without escapes. -/
def literal : Scan (List Char) := do
  char '\''
  let body ← stretch fun c => isPrintable c && c != '\''
  char '\''
  return body

/-- Three quotes end a string on several lines; one or two in front of them belong to it. -/
def closing (quote : Char) : Scan (List Char) := do
  let n := ((← get).takeWhile (· == quote)).length
  check (3 ≤ n)
  let kept := min (n - 3) 2
  modify (·.drop (kept + 3))
  return List.replicate kept quote

/-- A backslash at the end of a line swallows all blanks and ends of lines behind it. -/
def continuation : Scan Unit := do
  char '\\'
  blanks
  newline
  let _ ← many do
    match ← peek with
    | some ' ' | some '\t' =>
      blanks
      return some ()
    | some '\n' | some '\r' =>
      newline
      return some ()
    | _ => return none

/-- A string on several lines. The first line feed does not belong to it. -/
def multiline (quote : Char) (special : Scan (List Char)) : Scan (List Char) := do
  word (String.ofList [quote, quote, quote])
  let _ ← optional newline
  let pieces ← many do
    if ← sees (String.ofList [quote, quote, quote]) then return none
    match ← peek with
    | some '\n' | some '\r' =>
      newline
      return some ['\n']
    | some '\\' => return some (← special)
    | _ => return some [← one isPrintable]
  return pieces.flatten ++ (← closing quote)

def multilineBasic : Scan (List Char) :=
  multiline '"' do
    match ← optional continuation with
    | some _ => return []
    | none =>
      char '\\'
      return [← escape]

def multilineLiteral : Scan (List Char) :=
  multiline '\'' do
    char '\\'
    return ['\\']

def string : Scan String := do
  let body ← if ← sees "\"\"\"" then multilineBasic
    else if ← sees "'''" then multilineLiteral
    else if (← peek) = some '"' then basic
    else literal
  return String.ofList body

def isBare (c : Char) : Bool := c.isAlphanum || c = '-' || c = '_'

/-- One part of a key. -/
def simpleKey : Scan String := do
  match ← peek with
  | some '"' => return String.ofList (← basic)
  | some '\'' => return String.ofList (← literal)
  | _ =>
    let name ← stretch isBare
    check (!name.isEmpty)
    return String.ofList name

/-- Arrays, braces and the parts of a key nest less than so deep. -/
def depthLimit : Nat := 80

/-- A key: the parts in front of its last, and the last. Points stand between them. -/
def key : Scan (List String × String) := do
  blanks
  let first ← simpleKey
  blanks
  let rest ← many do
    if ← accept "." then
      blanks
      let part ← simpleKey
      blanks
      return some part
    else return none
  check (rest.length + 1 < depthLimit)
  return ((first :: rest).dropLast, (first :: rest).getLastD first)

end Dartify.Toml
