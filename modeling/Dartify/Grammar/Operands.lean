import Dartify.Grammar.Classes

/-! Operands: literals, names, brackets, functions, and what is appended to them. -/
namespace Dartify.Grammar

open Syntax Parse

variable {source : List Char}

/-- Reserved words that begin an operand. -/
def operandWords : List String :=
  ["class", "delete", "export", "false", "function", "import", "new", "null", "super", "this",
   "true", "typeof", "void"]

def operandSymbols : List String :=
  ["(", "[", "\x7b", "`", "!", "~", "+", "-", "++", "--", "/", "/=", "@", "<"]

/-- Whether the next token ends a heritage clause, though it might be a name. -/
def endsHeritage : Parse source Bool := do
  return (← mode).heritage && (← sees "implements")

/-- Whether the next token begins an operand. -/
def startsOperand : Parse source Bool := do
  if ← endsHeritage then return false
  let (kind, text) ← next
  match kind with
  | .word =>
    return if isReserved text then operandWords.contains text else !operatorWords.contains text
  | .number | .string | .privateName => return true
  | .symbol => return operandSymbols.contains text
  | _ => return false

/-- Whether a test succeeds behind the next word, if that word does not end the line. -/
def continued (test : Parse source Bool) : Parse source Bool :=
  lookahead do
    bump
    check (← notM expressionEnds <&&> test)

/-- A single expression in brackets may have a type; it says nothing about the value. -/
def parenthesized (g : Rules source) : Rule source :=
  node .parenthesized <| bracketed "(" ")" do
    g.expression
    if (← sees ":") && (← latest) != some .sequence then typeAnnotation g

def array (g : Rules source) : Rule source :=
  node (.named "array") <| bracketed "[" "]" <| g.sparseUpTo "]" <| element g

def objectMethod (g : Rules source) : Rule source :=
  frame do
    modifiers g ["public", "private", "protected", "static", "override", "readonly", "async",
      "get", "set"]
    let _ ← accept "*"
    check (modifyMethod (← wordsRead))
    memberName g
    let _ ← accept "?"
    check (← seesAny ["(", "<"])
    callSignature g
    functionBody g
    wrap .method

/-- A member of an object literal. Any word may stand for the value of its name. -/
def property (g : Rules source) : Rule source := do
  if ← sees "..." then spread g
  else if ← attempt (objectMethod g) then return
  else if ← attempt (do
      memberName g
      expect ":") then g.assignment
  else node .identifier (expectKind .word)

def object (g : Rules source) : Rule source :=
  node (.named "object") <| bracketed "\x7b" "\x7d" <| g.sparseUpTo "\x7d" <| property g

def template (g : Rules source) : Rule source :=
  node (.named "template_string") (templateOf g g.expression)

/-- A word that is asked about itself. -/
def metaProperty (owner name : String) : Rule source :=
  node (.named "meta_property") do
    expect owner
    expect "."
    expect name

/-- An import as an operand, where something is called or taken from it. -/
def importOperand (g : Rules source) : Rule source := do
  if ← attempt (metaProperty "import" "meta") then return
  check (← secondAny ["(", "?.", "<"])
  node (.named "import") bump
  if ← sees "<" then
    typeArguments g
    check (← sees "(")

/-! ## Steps behind an operand -/

/-- Constructs that nothing can be appended to as to a single value. -/
def isCompound : Construct → Bool
  | .assignment | .augmentedAssignment | .binary | .unary | .prefixUpdate | .postfixUpdate
  | .ternary | .newExpression | .instantiation => true
  | .named name =>
    ["as_expression", "satisfies_expression", "await_expression", "yield_expression",
      "type_assertion", "internal_module", "import", "private_property_identifier"].contains name
  | _ => false

/-- Whether the operand of this frame is a single value. -/
def isPrimary : Parse source Bool := do return (← latest).any (!isCompound ·)

/-- What follows a point that does nothing to a missing value. -/
def optionalLink (g : Rules source) : Rule source := do
  match ← nextText with
  | "[" => bracketed "[" "]" g.expression
  | "(" => arguments g
  | "<" =>
    typeArguments g
    arguments g
  | _ => memberAccess g

/-- Appends a member, an element or a template to the operand of this frame, and says whether there
was any. -/
def appendPart (g : Rules source) : Parse source Bool := do
  match ← nextText with
  | "." =>
    bump
    memberAccess g
    wrap .member
    return true
  | "?." =>
    let primary ← isPrimary
    bump
    check (primary || !(← seesAny ["(", "<"]))
    optionalLink g
    wrap (.named "optional_chain")
    return true
  | "[" =>
    bracketed "[" "]" g.expression
    wrap .subscript
    return true
  | "`" =>
    if !((← isPrimary) || (← latest) == some .newExpression) then return false
    template g
    wrap (.named "tagged template")
    return true
  | _ => return false

/-- Whether the type arguments taken last may stand for themselves: no operand follows that a
comparison would have to take. -/
def endsInstantiation (g : Rules source) : Parse source Bool := do
  if ← expressionEnds then return !(← startsOperand)
  if ← seesAny ["+", "-", "<"] then return true
  if ← lookahead (do
      check (← acceptAny ["!", "++", "--"])
      g.many (acceptAny ["!", "++", "--"])
      if ← acceptAny operatorWords then g.type .whole
      else
        check ((← seesAny ["(", "[", "\x60", "<", "+", "-"]) ||
          ((← mode).heritage && (← sees "\x7b")))) then return true
  if ← seesAny ["!", "/", "++", "--"] then return !(← lookahead (g.operand .sign))
  return !(← startsOperand)

/-- Whether symbols in type arguments, given by their tokens, are the parts of one longer symbol
where an operand could stand as well. Such a symbol is read whole. -/
def cutsSymbol (arguments : List Token) (splits : Bool) : Bool :=
  match behindAlike (arguments.drop 1) with
  | [_] => splits
  | t :: u :: _ => (t.text = "&" || t.text = "|") && u.text = t.text && u.trivia == []
  | [] => false

/-- Whether a value is bound together tighter than by comparison, where the operator behind type
arguments that would belong to it is a sign or not. -/
def isTight (sign : Bool) (value : Concrete) : Bool :=
  match value.binaryOp?.bind BinaryOp.level? with
  | some level => if sign then 9 < level else 8 < level
  | none => [Construct.unary, .prefixUpdate, .named "await_expression"].any value.is

/-- Whether angle brackets that compare are preferred to type arguments, which end here. They must
reach further. `before` is the state in front of the brackets. -/
def prefersComparison (g : Rules source) (before : State source) : Parse source Bool := do
  let sign ← seesAny ["+", "-"]
  if !sign && !(← splitsSymbol) then return false
  let here ← get
  let tight := before.top.head?.any (isTight sign)
  set before
  let compared ← lookahead do
    g.many do
      match BinaryOp.ofSpelling? (← nextText) with
      | some op =>
        if !op.level?.any (7 < ·) then return false
        bump
        g.operand (.right op)
        return true
      | none => return false
    check ((← get).rest.length < here.rest.length)
    let ends ← pure (← mode).mayEnd <&&> (return (← nextKind) == .endOfText)
    check (tight || (← mode).compares || ends)
  set here
  return compared

/-- Operators that combine the old value with the new one. -/
def augmentedOperators : List String :=
  ["+=", "-=", "*=", "/=", "%=", "^=", "&=", "|=", ">>=", ">>>=", "<<=", "**=", "&&=", "||=",
   "??="]

/-- Type arguments and what they belong to: a call, an element, or the value in front of them.
They are none if an operand follows, or an assignment to what would be the arguments, since the
angle brackets compare then. In a heritage clause they may belong to the clause. -/
def instantiation (g : Rules source) : Rule source := do
  check (!(← secondAny ["import"]))
  let before ← get
  valueArguments g
  forbidMarkup
  let tokens ← lastTokens
  check (!cutsSymbol tokens (← splitsSymbol))
  check (!(← seesAny ["=", "=>"]))
  if ← sees "(" then
    arguments g
    check (!(← seesAny ("=>" :: "=" :: augmentedOperators)))
    wrap .call
  else
    check (!(← prefersComparison g before))
    wrap .instantiation
    if ← sees "[" <&&> notM (secondAny ["]"]) then
      bracketed "[" "]" g.expression
      wrap .subscript
    else
      check (← endsInstantiation g)
      check (!((← mode).heritage && (← sees ",")))

/-- A cast behind the operand of this frame. -/
def cast (g : Rules source) : Rule source := do
  let word ← nextText
  bump
  allowMarkup
  if !(← accept "const") then within { (← mode) with inCast := true } (g.type .whole)
  forbidMarkup
  wrap (.named (word ++ "_expression"))

/-- Whether type arguments follow that end a supertype. -/
def seesLastArguments (g : Rules source) : Parse source Bool := do
  if (← mode).heritage && (← sees "<") then
    lookahead do
      valueArguments g
      check (← seesAny ["\x7b", ",", "implements"])
  else return false

/-- A value at the end of another. In a heritage clause the last type arguments belong to it. -/
def lastValue (g : Rules source) : Rule source :=
  frame do
    g.assignment
    if ← seesLastArguments g then
      typeArguments g
      wrap .instantiation

/-- Whether type arguments follow that no part of a value stands behind. -/
def seesPlainArguments (g : Rules source) : Parse source Bool :=
  lookahead do
    typeArguments g
    check (← notM (seesAny ("++" :: "--" :: operatorWords ++ partSymbols)))

/-- Whether a query for a type stands behind an opening angle bracket and a type could go on behind
it. It is preferred to a unary operator then, even if the bracket is never closed. -/
def seesQuery (g : Rules source) : Parse source Bool :=
  sees "typeof" <&&> lookahead do
    bump
    check (!(← seesAny ("undefined" :: "import" :: "yield" :: looseWords)))
    within .closed (queried g)
    let called := (← latest) != some .thisLiteral
    check (← seesAny [",", ">", "&", "|", "[", "<", ".", "?."] <||> (pure called <&&> sees "("))

/-- Appends an operator with its right operand to the operand of this frame, if it belongs to
it, and says whether there was any. The type arguments at the end of a supertype belong to it as a
whole, or to the right operand of what it consists of. -/
def appendOperator (g : Rules source) (reach : Reach) : Parse source Bool := do
  let text ← nextText
  if text == "=" then
    if (← notM isTarget) || !reach.takesAssignment then return false
    bump
    lastValue g
    wrap .assignment
    return true
  if augmentedOperators.contains text then
    if (← notM isTarget) || (← latest) == some .undefined then return false
    bump
    lastValue g
    wrap .augmentedAssignment
    return true
  if ← seesLastArguments g then
    if reach == .whole then return false
    typeArguments g
    wrap .instantiation
    return true
  match BinaryOp.ofSpelling? text with
  | some op =>
    if op == .lt && reach == .assigned then return ← attempt (instantiation g)
    if ← pure (op == .lt && reach.isUnary && (← mode).heritage) <&&> seesPlainArguments g then
      return ← attempt (instantiation g)
    if op.level?.isNone || !reach.takesOperator op || (op == .isIn && (← mode).inEnds) then
      return false
    if ← pure (op == .lt) <&&> attempt (instantiation g) then return true
    bump
    if op == .lt then
      check (← notM (seesQuery g))
      check (← notM (lookahead (onlyType g.bound)))
    g.operand (.right op)
    wrap .binary
    return true
  | none => return false

/-- The branches of a conditional. -/
def branches (g : Rules source) : Rule source := do
  bump
  within .beforeColon g.assignment
  expect ":"
  lastValue g
  wrap .ternary

/-- Appends what comes next to the operand of this frame, if it belongs to it, and says whether
there was anything. -/
def append (g : Rules source) (reach : Reach) : Parse source Bool := do
  if ← expressionEnds then return false
  let text ← nextText
  if reach == .constructed && (← isPrimary) then appendPart g
  else if reach == .asserted && [".", "[", "?."].contains text && !(← isPrimary) then return false
  else
    let reach := if reach == .constructed then .whole else reach
    if text == "(" then
      arguments g
      wrap .call
      return true
    if text == "++" || text == "--" then
      if !reach.takesUpdate then return false
      bump
      wrap .postfixUpdate
      return true
    if text == "!" then
      if !reach.takesCast then return false
      bump
      forbidMarkup
      wrap .nonNull
      return true
    if operatorWords.contains text then
      if !reach.takesCast then return false
      cast g
      return true
    if text == "?" then
      if !(reach.takesConditional && Lexical.conditionalMark (← get).rest) then return false
      branches g
      return true
    if ← appendPart g then return true
    appendOperator g reach

end Dartify.Grammar
