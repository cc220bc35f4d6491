import Dartify.Grammar.Statements

/-! The knot: every rule over the rules one level below it, and the reading of a whole text. -/
namespace Dartify.Grammar

open Syntax Parse

variable {source : List Char}

/-- Rules for constructs that nest at most so deep: each is read by the rules one level below. -/
def rules (source : List Char) : Nat → Rules source
  | 0 => Rules.none source (source.length + 1)
  | n + 1 => {
      bound := source.length + 1
      operand := fun reach s => operand (rules source n) reach s
      expression := fun s => expression (rules source n) s
      type := fun reach s => type (rules source n) reach s
      parameters := fun s => parameters (rules source n) s
      pattern := fun s => pattern (rules source n) s
      statement := fun s => statement (rules source n) s }

/-- A file: possibly a line for the command interpreter, and statements up to the end. -/
def sourceFile (g : Rules source) : Rule source :=
  node .sourceFile do
    let _ ← attempt (take Lexeme.readInterpreterLine)
    g.many do
      if (← nextKind) == .endOfText then return false
      g.statement
      return true

/-- The tree of a text, if the grammar accepts it. Every construct takes at least one token, so
nothing nests deeper than the text is long, up to the rules that lead from one to another. -/
def read? (source : List Char) : Option Concrete := do
  let (_, s) ← sourceFile (rules source (8 * source.length + 8)) (State.initial source)
  match s.top, s.below with
  | [c], [] => some c
  | _, _ => none

end Dartify.Grammar
