import Dartify.Syntax.Parse

/-! The grammar refers to itself through a record of rules. Each rule of the record reads one
construct whose parts may nest; a record is built from the one below it, so that nesting is
bounded and every rule is an ordinary function. -/
namespace Dartify.Grammar

open Syntax

abbrev Rule (source : List Char) := Parse source Unit

structure Rules (source : List Char) where
  /-- A bound for the repetitions within one construct. -/
  bound : Nat
  /-- An operand with all that belongs to it where it stands. -/
  operand : Reach → Rule source
  /-- An expression, with commas between operands. -/
  expression : Rule source
  /-- A type with all that belongs to it where it stands. -/
  type : TypeReach → Rule source
  /-- The parameters of a function, in brackets. -/
  parameters : Rule source
  pattern : Rule source
  statement : Rule source

namespace Rules

variable {source : List Char}

/-- Rules that accept nothing, below the deepest level. -/
def none (source : List Char) (bound : Nat) : Rules source :=
  ⟨bound, fun _ => failure, failure, fun _ => failure, failure, failure, failure⟩

/-- An expression without commas. -/
def assignment (g : Rules source) : Rule source := g.operand .whole

/-- Repeats a step until it says that it did nothing. -/
def many (g : Rules source) (step : Parse source Bool) : Rule source :=
  Parse.repeated g.bound step

/-- One or more items with commas between them. -/
def commaSeparated (g : Rules source) (item : Rule source) : Rule source := do
  item
  g.many do
    if ← Parse.accept "," then
      item
      return true
    else return false

/-- Items with commas between them and possibly one behind the last, up to a closing token that
is not taken. -/
def listUpTo (g : Rules source) (closing : String) (item : Rule source) : Rule source :=
  g.many do
    if ← Parse.sees closing then return false
    item
    Parse.accept ","

/-- The same, where a comma may also stand alone. -/
def looseListUpTo (g : Rules source) (closing : String) (item : Rule source) : Rule source := do
  if ← Parse.accept "," then Parse.check (← Parse.sees closing)
  else g.listUpTo closing item

/-- Items that may be missing between the commas, up to a closing token that is not taken. -/
def sparseUpTo (g : Rules source) (closing : String) (item : Rule source) : Rule source :=
  g.many do
    if ← Parse.sees closing then return false
    if ← Parse.accept "," then return true
    item
    Parse.accept ","

end Rules

/-! ## Words -/

/-- Words that are names only behind a point or in a property. -/
def reservedWords : List String :=
  ["break", "case", "catch", "class", "const", "continue", "debugger", "default", "delete", "do",
   "else", "export", "extends", "false", "finally", "for", "function", "if", "import", "in",
   "instanceof", "new", "null", "return", "super", "switch", "this", "throw", "true", "try",
   "typeof", "var", "void", "while", "with"]

/-- Reserved words that begin neither a statement nor an operand. -/
def freeWords : List String :=
  ["case", "catch", "default", "else", "extends", "finally", "in", "instanceof"]

/-- Words with a meaning of their own that are also names among operands. -/
def looseWords : List String :=
  ["any", "async", "await", "boolean", "declare", "export", "get", "let", "module", "namespace",
   "new", "number", "object", "override", "private", "protected", "public", "readonly", "set",
   "static", "string", "symbol", "type"]

/-- Words that are operators behind an operand. -/
def operatorWords : List String := ["as", "satisfies"]

def isReserved (word : String) : Bool := reservedWords.contains word

section

variable {source : List Char}

/-- Whether the next token is a name that is not reserved. -/
def seesName : Parse source Bool := do
  let (kind, text) ← Parse.next
  return kind == .word && !isReserved text

/-- Whether the next token is a name or a reserved word that may be one among operands and
properties. -/
def seesLooseName : Parse source Bool := seesName <||> Parse.seesAny ["export", "new"]

/-- Whether the next token is a name where an operand could stand as well. -/
def seesReference : Parse source Bool := do
  if (← Parse.mode).frees && (← Parse.seesAny freeWords) then return true
  seesLooseName <&&> notM (Parse.seesAny ["undefined", "using", "yield"])

/-- A name that is not reserved, as a token of the construct around it. -/
def name : Rule source := do
  Parse.check (← seesName)
  Parse.bump

/-- Takes a word that something must follow. -/
def keyword (word : String) : Rule source := do
  Parse.expect word
  Parse.allowMarkup

/-- The same for a construct. -/
def unfinished (p : Rule source) : Rule source := do
  p
  Parse.allowMarkup

/-- A name that is bound or referred to. -/
def identifier : Rule source := Parse.node .identifier name

/-- The name of a type. -/
def typeIdentifier : Rule source := Parse.node .typeIdentifier name

/-- Takes one angle bracket, which may be half of a longer symbol. -/
def angle (bracket : Char) : Rule source :=
  Parse.expect bracket.toString <|> Parse.take (Lexeme.readHead bracket)

/-- Whether the angle bracket taken last is the front of a longer symbol. -/
def splitsSymbol : Parse source Bool := do
  return (← get).rest.head?.any fun c => c == '>' || c == '='

end

end Dartify.Grammar
