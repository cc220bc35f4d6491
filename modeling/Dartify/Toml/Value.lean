/-! Values of a TOML document. How a table came to be decides what may still be added to it. -/
namespace Dartify.Toml

/-- How a table came to be. -/
inductive Origin where
  /-- The document, or a header of its own. -/
  | header
  /-- The header of a table within it. -/
  | implied
  /-- A key with points. -/
  | dotted
  /-- Braces; such a table is complete. -/
  | inline
deriving DecidableEq, Inhabited

inductive Value where
  | text (value : String)
  /-- A number, a truth value or a date. -/
  | plain
  | array (items : List Value)
  /-- Tables whose headers repeat; the last of them is open. -/
  | tables (items : List Value)
  | table (origin : Origin) (entries : List (String × Value))
deriving Inhabited

namespace Value

/-- A document without entries. -/
def empty : Value := table .header []

/-- What a key of a table holds. -/
def get? (v : Value) (key : String) : Option Value :=
  match v with
  | table _ entries => entries.lookup key
  | _ => none

/-- The entries with the value of a key replaced, or with a new key. -/
def set (key : String) (value : Value) : List (String × Value) → List (String × Value)
  | [] => [(key, value)]
  | (k, v) :: rest => if k = key then (key, value) :: rest else (k, v) :: set key value rest

/-- Changes the table that a path leads to. Tables on the way that do not exist are made. A key
with points does not pass through a table with a header, and nothing passes through a complete
value. -/
def descend (dotted : Bool) (change : Value → Option Value) : List String → Value → Option Value
  | [], v => change v
  | key :: path, table origin entries => do
    let inner ← match entries.lookup key with
      | none => descend dotted change path (table (if dotted then .dotted else .implied) [])
      | some (table .inline _) => none
      | some (table .header es) =>
        if dotted then none else descend dotted change path (table .header es)
      | some (table o es) => descend dotted change path (table o es)
      | some (tables items) => do
        let last ← items.getLast?
        return tables (items.dropLast ++ [← descend dotted change path last])
      | some _ => none
    return table origin (set key inner entries)
  | _ :: _, _ => none

/-- Adds an entry under a key with points in front of its last part. A table that such keys make
takes no other entries, and takes each key once. -/
def insert (t : Value) (path : List String) (key : String) (value : Value) : Option Value :=
  t.descend true (fun
    | table origin entries =>
      if (origin == .dotted) == path.isEmpty || (entries.lookup key).isSome then none
      else some (table origin (set key value entries))
    | _ => none) path

/-- Opens the table of a header. Of the tables there are already, only one that an inner header
implied may be opened. -/
def openTable (t : Value) (path : List String) (key : String) : Option Value :=
  t.descend false (fun
    | table origin entries =>
      match entries.lookup key with
      | none => some (table origin (set key (table .header []) entries))
      | some (table .implied es) => some (table origin (set key (table .header es) entries))
      | some _ => none
    | _ => none) path

/-- Opens one more table of a header that may repeat. -/
def openNext (t : Value) (path : List String) (key : String) : Option Value :=
  t.descend false (fun
    | table origin entries =>
      match entries.lookup key with
      | none => some (table origin (set key (tables [empty]) entries))
      | some (tables items) => some (table origin (set key (tables (items ++ [empty])) entries))
      | some _ => none
    | _ => none) path

end Value

end Dartify.Toml
