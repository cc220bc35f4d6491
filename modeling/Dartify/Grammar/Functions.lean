import Dartify.Grammar.Patterns

/-! Arguments, decorators, parameters and blocks. -/
namespace Dartify.Grammar

open Syntax Parse

variable {source : List Char}

def spread (g : Rules source) : Rule source :=
  node (.named "spread_element") do
    expect "..."
    g.assignment

/-- An item of an argument list or an array. -/
def element (g : Rules source) : Rule source := do
  if ← sees "..." then spread g else g.assignment

def arguments (g : Rules source) : Rule source :=
  node .arguments <| bracketed "(" ")" <| g.sparseUpTo ")" <| element g

/-- A name with members and a call of it. -/
def decoratorExpression (g : Rules source) : Rule source :=
  frame do
    unfinished identifier
    g.many do
      if ← accept "." then
        check ((← nextKind) == .word)
        memberName g
        wrap .member
        return true
      else return false
    if ← sees "<" then typeArguments g
    if ← sees "(" then
      arguments g
      wrap .call

def decorator (g : Rules source) : Rule source :=
  node .decorator do
    expect "@"
    if ← sees "(" then node .parenthesized <| bracketed "(" ")" <| decoratorExpression g
    else decoratorExpression g

def decorators (g : Rules source) : Rule source :=
  g.many do
    if ← sees "@" then
      unfinished (decorator g)
      return true
    else return false

/-- A word in front of what a parameter binds. -/
def parameterModifier (words : List String) : Rule source := do
  let _ ← attempt do
    check (← seesAny words)
    bump
    let (kind, text) ← next
    check ((kind == .word && !operatorWords.contains text) || kind == .string ||
      ["[", "\x7b", "..."].contains text)

/-- Whether the last part is a pattern that cannot be read as a value so far. -/
def bindsValues : Parse source Bool := do
  return (← get).top.head?.any fun last =>
    let c := if last.is .restPattern then last.nodes.headD last else last
    (c.is (.named "array_pattern") || c.is (.named "object_pattern")) && !c.nodes.isEmpty

/-- A parameter. Behind `readonly` brackets with a value hold the key of an element. -/
def parameter (g : Rules source) : Rule source :=
  node .parameter do
    decorators g
    parameterModifier ["public", "private", "protected"]
    parameterModifier ["override"]
    if ← notM (sees "readonly" <&&> lookahead (do
        bump
        bracketed "[" "]" g.expression)) then parameterModifier ["readonly"]
    if ← sees "this" <&&> notM (secondAny partSymbols) then node .thisLiteral bump
    else g.pattern
    if ← sees "?" then
      check ((← bindsValues) || !Lexical.conditionalMark (← get).rest)
      bump
    if ← sees ":" then typeAnnotation g
    within .inParameter (optionalInitializer g)

def parameters (g : Rules source) : Rule source :=
  node .parameters <| bracketed "(" ")" <| g.listUpTo ")" <| parameter g

/-- Statements in braces. Where an object could stand as well, the first of them may begin with a
reserved word as a name. -/
def braced (g : Rules source) (frees : Bool) : Rule source :=
  node .block do
    expect "\x7b"
    if frees && (← seesAny freeWords) then within { Mode.statement with frees := true } g.statement
    g.many do
      if ← sees "\x7d" then return false
      g.statement
      return true
    expect "\x7d"

/-- The body of a function that is a value. -/
def functionBody (g : Rules source) : Rule source := braced g false

/-- Statements in braces that end a statement. -/
def block (g : Rules source) : Rule source := do
  functionBody g
  settle

/-- A function as a value. -/
def functionExpression (g : Rules source) : Rule source :=
  frame do
    let _ ← accept "async"
    expect "function"
    let generator ← accept "*"
    if ← seesName then unfinished identifier
    callSignature g
    functionBody g
    wrap (.named (if generator then "generator_function" else "function_expression"))

/-! ## Modules -/

/-- Takes a word that opens a declaration. Where it may also be an operand, an omitted semicolon
behind it makes it one. -/
def contextual (word : String) (operand : Bool) : Rule source := do
  expect word
  check (!(operand && (← expressionEnds)))

/-- A name, or names with points between them. -/
def dottedName (g : Rules source) : Rule source := do
  name
  g.many do
    if ← accept "." then
      name
      return true
    else return false

/-- A namespace or a module. A namespace may be a value as well; then an omitted semicolon may
end it in front of its body. -/
def moduleDeclaration (g : Rules source) (word : String) (k : Construct)
    (operand : Bool) : Rule source :=
  node k do
    contextual word operand
    check (!(operand && (← seesAny operatorWords)))
    if (← nextKind) == .string then bump else dottedName g
    let ends ← pure (operand && word == "namespace") <&&> clauseEnds
    if !ends && (← sees "\x7b") then functionBody g

end Dartify.Grammar
