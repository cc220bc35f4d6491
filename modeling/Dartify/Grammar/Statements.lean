import Dartify.Grammar.Declarations

/-! Statements. -/
namespace Dartify.Grammar

open Syntax Parse

variable {source : List Char}

def expressionStatement (g : Rules source) : Rule source :=
  node .expressionStatement do
    g.expression
    semicolon ⟨true, false⟩

/-- A statement behind a bracket. -/
def body (g : Rules source) : Rule source := do
  allowMarkup
  g.statement

def ifStatement (g : Rules source) : Rule source :=
  node .ifStatement do
    expect "if"
    parenthesized g
    body g
    if ← sees "else" then
      node .elseClause do
        bump
        g.statement

/-! ## Loops -/

/-- An expression and a closing token, or the token alone. -/
def optionalExpression (g : Rules source) (closing : String) : Rule source := do
  if !(← sees closing) then node .slot (within .closed g.expression)
  else node .slot (pure ())
  expect closing

/-- The part of a loop header that runs first. -/
def loopStart (g : Rules source) : Rule source := do
  if ← seesAny ["var", "const"] <||> (sees "let" <&&> notM (secondAny operatorWords)) then
    if ← attempt (node .slot (variableStatement g false)) then return
  optionalExpression g ";"

/-- A loop with a start, a condition and a step. -/
def forStatement (g : Rules source) : Rule source :=
  node .forStatement do
    expect "for"
    expect "("
    loopStart g
    optionalExpression g ";"
    optionalExpression g ")"
    body g

/-- What a loop over a collection declares. -/
def loopDeclaration (g : Rules source) (elements : Bool) : Rule source := do
  let awaited ← accept "await"
  if ← accept "using" then identifier
  else
    check (!awaited)
    if ← accept "var" then
      binding g
      if ← sees "=" then within .beforeIn (initializer g)
      check (elements || !(← within .statement expressionEnds))
    else
      if ← accept "let" then check (← notM (seesAny operatorWords)) else expect "const"
      binding g

/-- A loop over the keys or the elements of a value. -/
def forInStatement (g : Rules source) : Rule source :=
  frame do
    expect "for"
    let awaited ← accept "await"
    expect "("
    within .closed do
      if !(← attempt (loopDeclaration g awaited)) then
        check (!(← sees "let" <&&> notM (secondAny ["."])))
        assignee g
    let words ← wordsRead
    let elements ← sees "of"
    check (← acceptAny ["in", "of"])
    allowMarkup
    within .closed g.expression
    expect ")"
    body g
    wrap (if awaited || elements || words.contains "await" then .named "for_of_statement"
      else .forInStatement)

def whileStatement (g : Rules source) : Rule source :=
  node .whileStatement do
    expect "while"
    parenthesized g
    body g

/-- The semicolon behind the condition may be missing. -/
def doStatement (g : Rules source) : Rule source :=
  node .doStatement do
    expect "do"
    g.statement
    expect "while"
    parenthesized g
    if !(← accept ";") then settle

/-! ## Branches and jumps -/

def switchCase (g : Rules source) : Rule source := do
  let statements := g.many do
    if ← seesAny ["case", "default", "\x7d"] then return false
    g.statement
    return true
  if ← sees "default" then
    node .switchDefault do
      bump
      expect ":"
      statements
  else
    node .switchCase do
      expect "case"
      within .beforeColon g.expression
      expect ":"
      statements

def switchStatement (g : Rules source) : Rule source :=
  node .switchStatement do
    expect "switch"
    unfinished (parenthesized g)
    expect "\x7b"
    g.many do
      if ← sees "\x7d" then return false
      switchCase g
      return true
    expect "\x7d"
    allowMarkup

/-- A jump, possibly to a label. -/
def jump (word : String) (plain labelled : Construct) : Rule source :=
  frame do
    expect word
    if ← seesName <&&> notM clauseEnds then
      bump
      semicolon ⟨false, false⟩
      wrap labelled
    else
      semicolon ⟨false, false⟩
      wrap plain

def returnStatement (g : Rules source) : Rule source :=
  node .returnStatement do
    expect "return"
    if ← sees ";" <||> clauseEnds then semicolon ⟨false, false⟩
    else
      g.expression
      semicolon ⟨true, false⟩

def throwStatement (g : Rules source) : Rule source :=
  node (.named "throw_statement") do
    expect "throw"
    g.expression
    semicolon ⟨true, false⟩

def tryStatement (g : Rules source) : Rule source :=
  node (.named "try_statement") do
    expect "try"
    block g
    if ← accept "catch" then
      if ← sees "(" then
        unfinished <| bracketed "(" ")" do
          unfinished (binding g)
          if ← sees ":" then typeAnnotation g
      block g
    if ← accept "finally" then block g

def withStatement (g : Rules source) : Rule source :=
  node (.named "with_statement") do
    expect "with"
    parenthesized g
    body g

def debuggerStatement : Rule source :=
  node (.named "debugger_statement") do
    expect "debugger"
    semicolon ⟨false, false⟩

def labeledStatement (g : Rules source) : Rule source :=
  node (.named "labeled_statement") do
    check (← seesReference)
    bump
    expect ":"
    g.statement

/-! ## Statements -/

/-- A statement that begins with a brace: a block, unless only an object fits. An object with a
pair in front is preferred to a block with a label. -/
def bracedStatement (g : Rules source) : Rule source := do
  let pair := lookahead do
    bump
    let (kind, text) ← next
    check ((kind == .word && !opensBody text) || kind == .string || kind == .number)
    bump
    check (← sees ":")
  if ← pair <&&> attempt (expressionStatement g) then return
  let before ← get
  if ← attempt (braced g true *> settle) then
    if ← notM continuesValue then return
    set before
  check (← seesObject g)
  expressionStatement g

/-- Whether a function or class behind the next tokens has a name. -/
def seesNamed : Parse source Bool :=
  lookahead do
    if ← sees "async" then contextual "async" true
    let _ ← accept "abstract"
    if ← accept "class" then check ((← seesName) && !(← seesAny ["implements"]))
    else
      expect "function"
      let _ ← accept "*"
      check (← seesName)

/-- What the decorators in front belong to. -/
def decorated (g : Rules source) : Rule source := do
  let exports ← lookahead do
    decorators g
    expect "export"
  let named ← lookahead do
    decorators g
    check (← seesNamed)
  if exports then exportStatement g
  else if named then classDeclaration g
  else expressionStatement g

/-- A declaration of something that could also be a value; it is one if an operator follows. -/
def valueOrDeclaration (g : Rules source) : Rule source := do
  let before ← get
  declaration g true
  if ← continuesValue <||> seesAny operatorWords then
    set before
    expressionStatement g

/-- A statement that begins with a word which may also be a name. -/
def contextualStatement (g : Rules source) (p : Rule source) : Rule source := do
  if ← attempt p then return
  if ← secondAny [":"] then labeledStatement g else expressionStatement g

/-- A statement that begins with `using`, also behind `await`. What reads as an assignment too is
one, unless the text ends with it. -/
def resourceStatement (g : Rules source) : Rule source := do
  let before ← get
  if ← attempt (declaration g true) then
    if (← nextKind) == .endOfText then return
    let declared ← get
    set before
    if !(← attempt (expressionStatement g)) then set declared
  else expressionStatement g

def wordStatement (g : Rules source) (word : String) : Rule source := do
  match word with
  | "var" => variableStatement g false
  | "const" | "interface" | "enum" => declaration g false
  | "using" => resourceStatement g
  | "abstract" => classDeclaration g
  | "function" | "class" | "async" =>
    if ← seesNamed then valueOrDeclaration g
    else contextualStatement g failure
  | "if" => ifStatement g
  | "for" =>
    if ← attempt (forStatement g) then return
    forInStatement g
  | "while" => whileStatement g
  | "do" => doStatement g
  | "switch" => switchStatement g
  | "break" => jump "break" .breakStatement (.named "labeled break_statement")
  | "continue" => jump "continue" (.named "continue_statement") (.named "continue_statement")
  | "return" => returnStatement g
  | "throw" => throwStatement g
  | "try" => tryStatement g
  | "with" => withStatement g
  | "debugger" => debuggerStatement
  | "import" =>
    if ← lookahead (do
        keyword "import"
        check (← seesAny ["(", ".", "?.", "<"])) then expressionStatement g
    else if ← attempt (importAlias g) then return
    else importStatement g
  | "export" =>
    if ← continued (seesAny ["*", "as"]) then exportStatement g
    else contextualStatement g (exportStatement g)
  | "let" =>
    if ← continued (seesAny ["[", "\x7b"] <||> (seesName <&&> notM (seesAny operatorWords))) then
      variableStatement g true
    else contextualStatement g failure
  | "namespace" =>
    contextualStatement g do
      declaration g true
      check (!(← expressionEnds) && !(← continuesValue) && !(← seesAny operatorWords))
  | "await" =>
    if ← secondAny ["using"] then resourceStatement g
    else contextualStatement g (declaration g true)
  | "type" | "module" | "declare" => contextualStatement g (declaration g true)
  | _ =>
    if isReserved word && word != "new" && !freeWords.contains word then expressionStatement g
    else contextualStatement g failure

def statement (g : Rules source) : Rule source := do
  within { Mode.statement with frees := (← mode).frees } do
    let (kind, text) ← next
    if kind == .word then wordStatement g text
    else
      match text with
      | "\x7b" => bracedStatement g
      | ";" => node (.named "empty_statement") bump
      | "@" => decorated g
      | _ => expressionStatement g

end Dartify.Grammar
