import Dartify.Abstraction.Declarations

/-! Statements and files. -/
namespace Dartify.Abstraction

open Syntax

section

variable (statement : Concrete → Reading Sketch)

def ifStatement (c : Concrete) : Reading Sketch := do
  match c.nodes with
  | test :: consequence :: others =>
    let test ← expression (← condition test)
    let consequence ← statement consequence
    let alternative ← others.head?.mapM fun clause => do statement (← clause.nodes.head?)
    sketch c do
      return .ifStatement (← .one test) (← .one consequence) (← .optional alternative)
  | _ => throw .rejected

/-- A part of a loop header: declarations or an expression. -/
def clause (c : Concrete) : Reading Sketch :=
  if c.is .variableStatement then declarationList c else expression c

/-- A part of a loop header that may be empty. -/
def slot (c : Concrete) : Reading (Option Sketch) := c.nodes.head?.mapM clause

def forStatement (c : Concrete) : Reading Sketch := do
  match c.nodes with
  | [first, test, step, body] =>
    let first ← slot first
    let test ← slot test
    let step ← slot step
    let body ← statement body
    sketch c do
      return .forStatement (← .optional first) (← .optional test) (← .optional step)
        (← .one body)
  | _ => throw .rejected

/-- A name that a loop declares, with the list that it is the only member of. -/
def loopVariable (c : Concrete) : Reading Sketch := do
  let name ← binding c
  let declaration ← sketch c do return .variableDeclaration (← .one name) none none
  sketch c do return .variableDeclarationList [← .one declaration]

/-- What a loop over keys assigns to: a name that it declares, or an expression. -/
def loopTarget (c target : Concrete) : Reading Sketch :=
  if ["var", "let", "const", "using"].any c.words.contains then loopVariable target
  else expression target

/-- A loop over keys. The value that a declared name starts with is left out. -/
def forInStatement (c : Concrete) : Reading Sketch := do
  match c.nodes.filter fun n => !n.is .initializer with
  | [left, right, body] =>
    let left ← loopTarget c left
    let right ← expression right
    let body ← statement body
    sketch c do return .forInStatement (← .one left) (← .one right) (← .one body)
  | _ => throw .rejected

def switchClause (c : Concrete) : Reading Sketch := do
  match ← c.construct?, c.nodes with
  | .switchCase, value :: statements =>
    let value ← expression value
    let statements ← statements.mapM statement
    sketch c do return .caseClause (← .one value) (← .many statements)
  | .switchDefault, statements =>
    let statements ← statements.mapM statement
    sketch c do return .defaultClause (← .many statements)
  | _, _ => foreign c

def switchStatement (c : Concrete) : Reading Sketch := do
  match c.nodes with
  | value :: clauses =>
    let value ← expression (← condition value)
    let clauses ← clauses.mapM (switchClause statement)
    sketch c do return .switchStatement (← .one value) (← .many clauses)
  | _ => throw .rejected

/-- An exported function or class stands where the export begins; other exports are kept by
name. -/
def exportStatement (c : Concrete) : Reading Sketch :=
  match undecorated c with
  | [declaration] =>
    if c.words.contains "default" then foreign c
    else if declaration.is .functionDeclaration then function statement declaration c
    else if declaration.is .classDeclaration then classDeclaration statement declaration c
    else foreign c
  | _ => foreign c

def whileStatement (c : Concrete) : Reading Sketch :=
  match c.nodes with
  | [test, body] => do
    let test ← expression (← condition test)
    let body ← statement body
    sketch c do return .whileStatement (← .one test) (← .one body)
  | _ => throw .rejected

def doStatement (c : Concrete) : Reading Sketch :=
  match c.nodes with
  | [body, test] => do
    let body ← statement body
    let test ← expression (← condition test)
    sketch c do return .doStatement (← .one body) (← .one test)
  | _ => throw .rejected

def returnStatement (c : Concrete) : Reading Sketch := do
  let value ← optional expression c.nodes.head?
  sketch c do return .returnStatement (← .optional value)

/-- A statement, given how to read the statements within it. -/
def statementWith (c : Concrete) : Reading Sketch := do
  match ← c.construct? with
  | .variableStatement =>
    let list ← declarationList c
    sketch c do return .variableStatement (← .one list)
  | .expressionStatement =>
    let e ← expression (← c.nodes.head?)
    sketch c do return .expressionStatement (← .one e)
  | .block => block statement c
  | .ifStatement => ifStatement statement c
  | .forStatement => forStatement statement c
  | .forInStatement => forInStatement statement c
  | .whileStatement => whileStatement statement c
  | .doStatement => doStatement statement c
  | .switchStatement => switchStatement statement c
  | .breakStatement => leaf c .breakStatement
  | .returnStatement => returnStatement c
  | .functionDeclaration => function statement c c
  | .classDeclaration => classDeclaration statement c c
  | .exportStatement => exportStatement statement c
  | _ => foreign c

end

/-- A statement that nests at most so deep. -/
def statementWithin : Nat → Concrete → Reading Sketch
  | 0, _ => throw .rejected
  | n + 1, c => statementWith (statementWithin n) c

/-- The sketch of a file. It begins with the text and ends with a node at the end of the text,
which carries the comments behind the last token. -/
def sourceFile (text : List Char) (c : Concrete) : Reading Sketch := do
  let statements ← c.nodes.mapM (statementWithin c.height)
  let stop := Place.origin.after text
  let behind := (c.last?.map (·.stop)).getD .origin
  let marker := Sketch.leaf ⟨stop.offset, stop.offset, behind.offset, stop.line, stop.column⟩
    .endOfFile
  return .filled ⟨0, stop.offset, 0, 0, 0⟩ do
    return .sourceFile (← .many statements) (← .one marker)

end Dartify.Abstraction
