import Dartify.Grammar.Operands

/-! Expressions: operands under operators. -/
namespace Dartify.Grammar

open Syntax Parse

variable {source : List Char}

/-! ## Arrow functions -/

/-- Words that open statements or stand for values. They are no names where a statement may begin. -/
def opensBody (word : String) : Bool :=
  ["abstract", "enum", "interface", "undefined", "using", "yield"].contains word ||
    (isReserved word && !("export" :: "new" :: freeWords).contains word)

/-- Whether what begins with a brace can be an object where a block could stand as well. A word that
opens statements is no name in front of an object there, and a name alone, or with a value alone, is
an expression in a block. -/
def seesObject (g : Rules source) : Parse source Bool := do
  if ← second fun kind text => kind == .word && opensBody text then return false
  notM <| lookahead do
    bump
    expectKind .word
    if ← accept "=" then
      g.assignment
      expect "\x7d"
    else check (← seesAny [",", "\x7d"])

/-- The type of a result in front of an arrow. One in brackets is no type of a function if the arrow in
that type is the only one. -/
def arrowResult (g : Rules source) : Rule source := do
  if ← attempt (do
      returnAnnotation g
      check (← sees "=>")) then return
  node .ascription do
    expect ":"
    frame do
      parenthesizedType g
      g.many (appendToType g .whole)
  check (← sees "=>")

/-- An arrow function. -/
def arrow (g : Rules source) : Rule source :=
  node (.named "arrow_function") do
    let _ ← attempt do
      expect "async"
      check (!(← sees "=>") && !(← expressionEnds))
    if ← seesReference then node .identifier bump
    else
      if ← sees "<" then typeParameters g
      g.parameters
      if ← sees ":" then arrowResult g
    expect "=>"
    if ← sees "\x7b" then
      if ← attempt (do
          braced g true
          check (!(← sees "="))) then return
      check (← seesObject g)
    g.assignment

/-- Whether the next tokens are a name and an arrow. -/
def seesArrow : Parse source Bool := seesReference <&&> secondAny ["=>"]

/-- Whether `async` is a modifier of the arrow function behind it. -/
def seesAsyncArrow : Parse source Bool :=
  sees "async" <&&> lookahead do
    bump
    check (!(← expressionEnds))
    check (← seesArrow <||> seesAny ["(", "<"])

/-- Something in brackets: an operand, or the parameters of an arrow function. If both fit, it is
a function; in the middle of a conditional the colon must remain for the conditional. -/
def bracketOrArrow (g : Rules source) : Rule source := do
  let before ← get
  let behind := Lexical.behindBrackets 0 before.rest
  let pointed := "=>".toList.isPrefixOf (behind.drop (Lexical.trivia false behind))
  if ← pure pointed <&&> attempt (arrow g) then return
  if ← attempt (parenthesized g) then
    let colon ← sees ":"
    if ← sees "=>" <||> (pure colon <&&> lookahead (arrowResult g)) then
      let after ← get
      set before
      if ← attempt do
          arrow g
          check (!colon || !(← mode).colonEnds || (← sees ":")) then return
      set after
  else arrow g

/-! ## The front of an operand -/

/-- A value, or a pattern that takes one apart and an assignment to it. -/
def literalOrPattern (g : Rules source) (literal : Rule source) : Rule source := do
  if ← attempt do
      literal
      check (!(← sees "=")) then return
  node .assignment do
    destructuring g
    expect "="
    g.assignment

/-- Whether a regular expression stands here that can be awaited, so that the slash behind it does
not divide: an operator may follow, but nothing that is divided by. -/
def seesAwaitedPattern (g : Rules source) : Parse source Bool :=
  lookahead do
    check (!(← lookahead do
      node .regex (take Lexeme.readRegex)
      check (← sees "\x60")))
    g.operand .awaited
    if ← seesAny ["+", "-", "/", "<"] then
      bump
      g.operand .sign
    else
      check (← notM startsOperand)
      check (← notM (seesAny ("=" :: augmentedOperators)))

/-- The name `await` with what could also be awaited but belongs to the name, or to the `new` in
front of it. -/
def awaitAsName (g : Rules source) (reach : Reach) : Rule source :=
  frame do
    identifier
    let text ← nextText
    if reach == .constructed && ["(", "<"].contains text then return
    match text with
    | "(" =>
      arguments g
      check (← notM (seesAny ("=>" :: "=" :: augmentedOperators)))
      wrap .call
    | "[" =>
      bracketed "[" "]" g.expression
      wrap .subscript
    | "`" =>
      template g
      wrap (.named "tagged template")
    | "<" =>
      typeArguments g
      arguments g
      check (!(← sees "=>"))
      wrap .call
    | "/" =>
      check (← notM (seesAwaitedPattern g))
      check (← lookahead (bump *> g.operand .sign))
    | "/=" => return
    | _ => failure

/-- `await` with a value, or as a name if there is none. -/
def awaited (g : Rules source) (reach : Reach) : Rule source := do
  if ← pure (reach != .assigned) <&&> continued startsOperand then
    if ← attempt (awaitAsName g reach) then return
    if ← attempt <| node (.named "await_expression") do
        bump
        g.operand .awaited then return
  identifier

/-- What follows `yield`: a value, or the source of many, or nothing. -/
def yielded (g : Rules source) : Rule source := do
  if ← accept "*" then lastValue g
  else if ← notM expressionEnds <&&> startsOperand then lastValue g

/-- What is assigned to: a name, a part of a value, or a pattern. -/
def assignee (g : Rules source) : Rule source := do
  if ← attempt <| frame do
      g.operand .assigned
      check (← isTarget) then return
  destructuring g

/-- An assignment to a resource that is used. -/
def usingAssignment (g : Rules source) : Rule source :=
  node .assignment do
    expect "using"
    assignee g
    expect "="
    g.assignment

/-- Type arguments in front of a value, or the type parameters of a function. The words of types
are no names of type parameters here. -/
def bracketedType (g : Rules source) : Rule source := do
  let typed ← lookahead do
    angle '<'
    check (predefinedTypes.contains (← nextText))
  if ← pure !typed <&&> attempt (arrow g) then return
  node (.named "type_assertion") do
    unfinished (typeArguments g)
    g.operand .asserted

/-- An operand that begins with a word. -/
def wordOperand (g : Rules source) (reach : Reach) (word : String) : Rule source := do
  match word with
  | "this" => node .thisLiteral bump
  | "true" => node .trueLiteral bump
  | "false" => node .falseLiteral bump
  | "null" => node .nullLiteral bump
  | "undefined" => node .undefined bump
  | "super" => node (.named "super") bump
  | "function" => functionExpression g
  | "class" => classExpression g
  | "import" => importOperand g
  | "typeof" | "void" | "delete" =>
    node .unary do
      bump
      g.operand .sign
  | "new" =>
    let named ← pure (reach == .assigned) <&&> secondAny ["of"]
    if ← pure !named <&&> continued (startsOperand <||> sees ".") then
      if ← attempt (metaProperty "new" "target") then return
      node .newExpression do
        bump
        g.operand .constructed
        check (← isPrimary)
        if ← sees "<" then
          typeArguments g
          forbidMarkup
        if ← sees "(" then arguments g
    else node .identifier bump
  | "export" => node .identifier bump
  | "await" => awaited g reach
  | "yield" =>
    node (.named "yield_expression") do
      bump
      yielded g
  | "using" => usingAssignment g
  | "namespace" =>
    let named ← continued ((seesName <&&> notM (seesAny operatorWords <||> endsHeritage)) <||>
      (return (← nextKind) == .string))
    if named && reach != .assigned then
      moduleDeclaration g "namespace" (.named "internal_module") true
    else identifier
  | "async" =>
    if ← continued (sees "function") then functionExpression g
    else if ← seesAsyncArrow <&&> attempt (arrow g) then return
    else identifier
  | _ =>
    check (← seesReference)
    node .identifier bump

/-- The front of an operand, up to the first step that is appended to it. -/
def front (g : Rules source) (reach : Reach) : Rule source := do
  if ← seesArrow then arrow g
  else
    let (kind, text) ← next
    match kind with
    | .number => node .number bump
    | .string => node .string bump
    | .word => wordOperand g reach text
    | .privateName =>
      frame do
        node (.named "private_property_identifier") bump
        expect "in"
        g.operand (.right .isIn)
        wrap .binary
    | .symbol =>
      match text with
      | "(" => bracketOrArrow g
      | "[" => literalOrPattern g (array g)
      | "\x7b" => literalOrPattern g (object g)
      | "`" => template g
      | "/" | "/=" => node .regex (take Lexeme.readRegex)
      | "@" => classExpression g
      | "!" | "~" | "+" | "-" =>
        node .unary do
          bump
          g.operand .sign
      | "++" | "--" =>
        node .prefixUpdate do
          unfinished bump
          g.operand .update
      | "<" | "<<" => bracketedType g
      | _ => failure
    | _ => failure

/-- An operand with all that belongs to it where it stands. -/
def operand (g : Rules source) (reach : Reach) : Rule source :=
  frame do
    front g reach
    g.many (append g reach)

/-- An expression; commas separate its operands. -/
def expression (g : Rules source) : Rule source :=
  frame do
    operand g .whole
    if ← sees "," then
      g.many do
        if ← accept "," then
          operand g .whole
          return true
        else return false
      wrap .sequence

end Dartify.Grammar
