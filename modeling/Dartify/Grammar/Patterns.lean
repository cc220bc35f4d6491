import Dartify.Grammar.Types

/-! Patterns: what is bound or assigned to. -/
namespace Dartify.Grammar

open Syntax Parse

variable {source : List Char}

/-- A value behind an equals sign. -/
def initializer (g : Rules source) : Rule source :=
  node .initializer do
    expect "="
    g.assignment

def optionalInitializer (g : Rules source) : Rule source := do
  if ← sees "=" then initializer g

/-- Whether the operand of this frame can be assigned to. -/
def isTarget : Parse source Bool := do
  match (← get).top.head? with
  | some (.node k parts) =>
    match k with
    | .identifier | .undefined | .member | .subscript | .nonNull | .parenthesized => return true
    | .named "optional_chain" => return !(parts.getLast?.any (·.is .arguments))
    | _ => return false
  | _ => return false

/-- Symbols that begin a part of the value in front of them. -/
def partSymbols : List String := [".", "?.", "[", "(", "!", "\x60"]

/-- A name, or a part of any value. What begins with a bracket must go on behind it. -/
def target (g : Rules source) : Rule source :=
  frame do
    if ← seesAny ["(", "[", "\x7b"] then
      let behind := Lexical.behindBrackets 0 (← get).rest
      let next := behind.drop (Lexical.trivia false behind)
      check (partSymbols.any (·.toList.isPrefixOf next))
    g.operand .assigned
    check (← isTarget)
    check ((← latest) != some .parenthesized)

/-- A member of an object pattern. Any word may be bound by its name. -/
def memberPattern (g : Rules source) : Rule source := do
  if ← sees "..." then g.pattern
  else
    let keyed ← attempt do
      memberName g
      expect ":"
    if keyed then g.pattern
    else
      expectKind .word
    optionalInitializer g

/-- A pattern that takes a value apart. -/
def destructuring (g : Rules source) : Rule source := do
  if ← sees "[" then
    node (.named "array_pattern") <| bracketed "[" "]" <| g.sparseUpTo "]" do
      g.pattern
      optionalInitializer g
  else
    node (.named "object_pattern") <|
      bracketed "\x7b" "\x7d" <| g.sparseUpTo "\x7d" <| memberPattern g

/-- A pattern that takes a value apart, or what a value is assigned to. -/
def patternOrTarget (g : Rules source) : Rule source := do
  if ← seesAny ["[", "\x7b"] <&&> attempt (do
      destructuring g
      check (← notM (seesAny partSymbols))) then return
  target g

/-- What a parameter binds. What takes the rest has no value of its own behind it. -/
def pattern (g : Rules source) : Rule source := do
  if ← sees "..." then
    node .restPattern do
      bump
      patternOrTarget g
      check (!(← sees "="))
  else patternOrTarget g

/-- What a declaration binds. -/
def binding (g : Rules source) : Rule source := do
  if ← seesAny ["[", "\x7b"] then destructuring g else identifier

end Dartify.Grammar
