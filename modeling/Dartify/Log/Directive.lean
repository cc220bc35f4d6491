import Dartify.Text.Blank
import Dartify.Text.Search
import Dartify.Text.Shapeless

/-! Directives: what is shown of what happens at some places of the program. -/
namespace Dartify.Log

inductive Level where
  | error
  | warn
  | info
  | debug
  | trace
deriving DecidableEq, Inhabited

namespace Level

/-- The greater, the more is shown. -/
def rank : Level → Nat
  | error => 1
  | warn => 2
  | info => 3
  | debug => 4
  | trace => 5

def name : Level → String
  | error => "ERROR"
  | warn => "WARN"
  | info => "INFO"
  | debug => "DEBUG"
  | trace => "TRACE"

end Level

/-- A place of the program that tells about events: its module, how much they matter, and the
names of their fields. -/
structure Origin where
  module : String
  level : Level
  fields : List String
deriving DecidableEq, Inhabited

/-- A stretch of a run, with its name and the values of its fields. -/
structure Span where
  module : String
  level : Level
  name : String
  values : List (String × String)
deriving DecidableEq, Inhabited

/-- A field that must be there, and the value that it must have, if any. -/
structure FieldTest where
  name : List Char
  value : Option (List Char)
deriving DecidableEq, Inhabited

/-- Shows events up to a rank; rank zero shows none. They are those of modules with a prefix, with
certain fields, or within certain spans. -/
structure Directive where
  modules : Option (List Char)
  span : Option (List Char)
  fields : List FieldTest
  rank : Nat
deriving DecidableEq, Inhabited

namespace Directive

/-- A directive about everything. -/
def ofRank (rank : Nat) : Directive := ⟨none, none, [], rank⟩

/-! ## What a directive is about -/

/-- Whether it is about events by themselves. -/
def isPlain (d : Directive) : Bool := d.span.isNone && d.fields.all (·.value.isNone)

/-- Whether it is about what happens within a span. -/
def namesSpan (d : Directive) : Bool := d.span.isSome || !d.fields.isEmpty

def suitsModule (d : Directive) (module : String) : Bool :=
  d.modules.all (·.isPrefixOf module.toList)

def suits (d : Directive) (place : Origin) : Bool :=
  d.suitsModule place.module && d.fields.all fun f => place.fields.contains (String.ofList f.name)

def suitsSpan (d : Directive) (span : Span) : Bool :=
  d.suitsModule span.module && d.span.all (String.ofList · == span.name) &&
    d.fields.all fun f => (span.values.lookup (String.ofList f.name)).isSome

/-- Whether a text is the value of a test. A point in the test stands for any character. -/
def agrees : List Char → List Char → Bool
  | [], [] => true
  | p :: ps, c :: cs => (p = '.' || p = c) && agrees ps cs
  | _, _ => false

def suitsValues (d : Directive) (span : Span) : Bool :=
  d.fields.all fun f =>
    match f.value, span.values.lookup (String.ofList f.name) with
    | some wanted, some value => agrees wanted value.toList
    | some _, none => false
    | none, _ => true

/-- Whether two directives are about the same events. -/
def sameScope (d e : Directive) : Bool := { d with rank := 0 } = { e with rank := 0 }

/-- Whether a directive goes before another: its prefix is longer, or it asks for more fields, or
for fields with greater names. -/
def supersedes (d best : Directive) : Bool :=
  let weight (d : Directive) := (d.modules.elim 0 (·.length + 1), d.fields.length)
  let (a, m) := weight d
  let (b, n) := weight best
  if a ≠ b then b < a
  else if m ≠ n then n < m
  else decide (best.fields.map (·.name) < d.fields.map (·.name))

/-! ## Reading -/

/-- How a text can fail to be a directive. -/
inductive Fault where
  | form
  | level
deriving DecidableEq, Inhabited

def Fault.message : Fault → String
  | form => "invalid filter directive"
  | level => "error parsing level filter: expected one of \"off\", \"error\", \"warn\", " ++
      "\"info\", \"debug\", \"trace\", or a number 0-5"

/-- The rank that digits stand for. -/
def rankOfDigits? (digits : List Char) : Option Nat :=
  let n := digits.foldl (fun n c => n * 10 + (c.toNat - '0'.toNat)) 0
  if digits.isEmpty || !digits.all Char.isDigit || 5 < n then none else some n

/-- The rank that a word or a number stands for. -/
def rankOf? (word : List Char) : Option Nat :=
  match word with
  | '+' :: digits => rankOfDigits? digits
  | _ =>
    match String.ofList (word.map Char.toLower) with
    | "off" => some 0
    | "error" => some 1
    | "warn" => some 2
    | "info" => some 3
    | "debug" => some 4
    | "trace" => some 5
    | _ => rankOfDigits? word

/-- A level that is left empty shows all. -/
def readRank (word : List Char) : Except Fault Nat :=
  if word.isEmpty then return Level.trace.rank
  else (rankOf? word).elim (throw .level) pure

def readField (text : List Char) : Except Fault FieldTest :=
  match Text.split '=' text with
  | name :: more => if text.isEmpty then throw .form else return ⟨name, more.head?⟩
  | [] => throw .form

/-- The part of a directive that is being read, and where it began. -/
inductive Part where
  | start
  /-- A level, or the prefix of modules. -/
  | word (first : Nat)
  | span (first : Nat)
  | field (first : Nat)
  | fieldsEnd
  | spanEnd
  | level (first : Nat)

/-- Whether a directive may begin with a character. -/
def opensWord (c : Char) : Bool :=
  c.isAlphanum || c = '-' || c = ':' || c = '_' || ('\x7f' < c && !Text.isShapeless c)

/-- Reads one character at a position. Parts are cut out of the text by position. -/
def step (text : List Char) : Part × Directive → Char × Nat → Except Fault (Part × Directive)
  | (part, d), (c, i) =>
    let cut (first : Nat) := (text.drop first).take (i - first)
    match part, c with
    | .start, '[' => return (.span (i + 1), d)
    | .start, _ => if opensWord c then return (.word i, d) else throw .form
    | .word first, '=' => return (.level (i + 1), { d with modules := some (cut first) })
    | .word first, '[' => return (.span (i + 1), { d with modules := some (cut first) })
    | .spanEnd, '=' => return (.level (i + 1), d)
    | .span first, ']' => return (.spanEnd, { d with span := some (cut first) })
    | .span first, '{' =>
      return (.field (i + 1), { d with span := if (cut first).isEmpty then none else cut first })
    | .field first, '}' => do
      return (.fieldsEnd, { d with fields := d.fields ++ [← readField (cut first)] })
    | .fieldsEnd, ']' => return (.spanEnd, d)
    | .fieldsEnd, _ | .spanEnd, _ => throw .form
    | part, _ => return (part, d)

/-- Reads a directive. Blanks at its ends are passed over, but positions count from the first
character that is none, so that blanks in front move the parts. -/
def parse (text : List Char) : Except Fault Directive := do
  let (part, d) ← (Text.trim text).zipIdx.foldlM (step text) (.start, ofRank Level.trace.rank)
  match part with
  | .word first =>
    let word := text.drop first
    match rankOf? word with
    | some rank => return { d with rank := rank }
    | none => return { d with modules := some word }
  | .level first => return { d with rank := ← readRank (text.drop first) }
  | .spanEnd => return d
  | _ => throw .form

end Directive

end Dartify.Log
