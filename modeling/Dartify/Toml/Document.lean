import Dartify.Toml.Plain
import Dartify.Toml.Text
import Dartify.Toml.Value

/-! Documents: lines that are empty, headers or entries. -/
namespace Dartify.Toml

open Scan

/-- Items with commas between them, and possibly one behind the last. -/
def items (item : Scan Value) : Scan (List Value) := do
  char '['
  gap
  let values ← many do
    if (← peek) = some ']' then return none
    let v ← item
    gap
    if ← accept "," then gap
    else check ((← peek) = some ']')
    return some v
  char ']'
  return values

/-- A key, an equals sign and a value. -/
def entry (item : Scan Value) : Scan (List String × String × Value) := do
  let (path, name) ← key
  char '='
  blanks
  return (path, name, ← item)

/-- Entries in braces, with commas between them. -/
def braces (item : Scan Value) : Scan Value := do
  char '{'
  blanks
  let add (t : Value) : Scan Value := do
    let (path, name, v) ← entry item
    blanks
    match t.insert path name v with
    | some t => return t
    | none => failure
  let empty := Value.table .inline []
  if ← accept "\x7d" then return empty
  let t ← add empty
  let t ← evolve (fun t => do
    if ← accept "," then return some (← add t) else return none) ((← get).length + 1) t
  char '}'
  return t

/-- A value; arrays and braces nest at most so deep. -/
def value : Nat → Scan Value
  | 0 => failure
  | depth + 1 => do
    match ← peek with
    | some '"' | some '\'' => return .text (← string)
    | some '[' => return .array (← items (value depth))
    | some '{' => braces (value depth)
    | _ =>
      plain
      return .plain

/-- The document read so far, and the header that the next entries belong to. -/
structure Draft where
  document : Value
  header : List String

/-- A header in so many brackets. -/
def header (opening closing : String) : Scan (List String × String) := do
  word opening
  let k ← key
  word closing
  lineEnd
  return k

/-- Reads one line; there is none at the end of the text. -/
def line (d : Draft) : Scan (Option Draft) := do
  blanks
  match ← peek with
  | none => return none
  | some '\n' | some '\r' =>
    newline
    return some d
  | some '#' =>
    lineEnd
    return some d
  | some '[' =>
    let repeats ← sees "[["
    let (path, name) ← if repeats then header "[[" "]]" else header "[" "]"
    let opened := if repeats then d.document.openNext path name
      else d.document.openTable path name
    match opened with
    | some document => return some ⟨document, path ++ [name]⟩
    | none => failure
  | _ =>
    let (path, name, v) ← entry (value depthLimit)
    lineEnd
    match d.document.descend false (·.insert path name v) d.header with
    | some document => return some { d with document := document }
    | none => failure

/-- The document of a text, which may begin with a byte-order mark. -/
def parse? (text : String) : Option Value := do
  let cs := text.toList
  let cs := if cs.head? = some '\ufeff' then cs.tail else cs
  let (d, _) ← (evolve line (cs.length + 1) ⟨.empty, []⟩).run cs
  return d.document

end Dartify.Toml
