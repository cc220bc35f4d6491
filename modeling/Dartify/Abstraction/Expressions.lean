import Dartify.Abstraction.Basic
import Dartify.Literal.Decode

/-! Expressions. Type arguments say nothing about values and are left out. -/
namespace Dartify.Abstraction

open Syntax

/-- Two operands of an operator. -/
def infixed (c : Concrete) (left : Sketch) (op : BinaryOp) (right : Sketch) : Reading Sketch :=
  sketch c do return .binary (← .one left) op (← .one right)

/-- Operands joined by a binary operator or an augmented assignment. -/
def binary (inner : Concrete → Reading Sketch) (c : Concrete) : Reading Sketch := do
  match c.parts with
  | [left, .leaf token, right] =>
    match BinaryOp.ofSpelling? token.text with
    | some op => infixed c (← inner left) op (← inner right)
    | none => unsupported c ("binary operator '" ++ token.text ++ "'")
  | _ => throw .rejected

/-- A comma list groups to the left, and each of its prefixes stands where the list begins. -/
def commas (c : Concrete) : Sketch → List Sketch → Reading Sketch
  | left, [] => return left
  | left, right :: more => do
    let site ← site? c
    let pair := Sketch.filled { site with stop := right.site.stop } do
      return .binary (← .one left) .comma (← .one right)
    commas c pair more

def sequence (inner : Concrete → Reading Sketch) (c : Concrete) : Reading Sketch := do
  match ← c.nodes.mapM inner with
  | [] => throw .rejected
  | left :: more => commas c left more

/-- An operator in front of its operand. Operators that are words have kinds of their own. -/
def prefixed (c : Concrete) (op : String) (operand : Sketch) : Reading Sketch :=
  match op with
  | "typeof" => sketch c do return .typeOf (← .one operand)
  | "void" => sketch c do return .void (← .one operand)
  | "delete" => sketch c do return .delete (← .one operand)
  | _ =>
    match PrefixOp.ofSpelling? op with
    | some op => sketch c do return .prefixUnary op (← .one operand)
    | none => unsupported c ("unary operator '" ++ op ++ "'")

def postfixed (c : Concrete) (operand : Sketch) (op : String) : Reading Sketch :=
  match PostfixOp.ofSpelling? op with
  | some op => sketch c do return .postfixUnary op (← .one operand)
  | none => unsupported c ("update operator '" ++ op ++ "'")

/-- The arguments of a call; without brackets there are none. -/
def arguments (inner : Concrete → Reading Sketch) (c : Concrete) : Reading (List Sketch) :=
  match c.part? .arguments with
  | some list => list.nodes.mapM inner
  | none => return []

def call (inner : Concrete → Reading Sketch) (c : Concrete) : Reading Sketch := do
  let callee ← inner (← c.nodes.head?)
  let args ← arguments inner c
  sketch c do return .call (← .one callee) (← .many args)

def construction (inner : Concrete → Reading Sketch) (c : Concrete) : Reading Sketch := do
  let constructed ← inner (← c.nodes.head?)
  let args ← arguments inner c
  sketch c do return .newExpression (← .one constructed) (← .many args)

def parenthesized (inner : Concrete → Reading Sketch) (c : Concrete) : Reading Sketch := do
  let e ← inner (← c.nodes.head?)
  sketch c do return .parenthesized (← .one e)

def member (inner : Concrete → Reading Sketch) (c : Concrete) : Reading Sketch :=
  match c.nodes with
  | [object, property] => do
    let e ← inner object
    let name ← memberName property
    sketch c do return .propertyAccess (← .one e) (← .one name)
  | _ => throw .rejected

def subscript (inner : Concrete → Reading Sketch) (c : Concrete) : Reading Sketch :=
  match c.nodes with
  | [object, index] => do
    let e ← inner object
    let i ← inner index
    sketch c do return .elementAccess (← .one e) (← .one i)
  | _ => throw .rejected

def assignment (inner : Concrete → Reading Sketch) (c : Concrete) : Reading Sketch :=
  match c.nodes with
  | [left, right] => do infixed c (← inner left) .assign (← inner right)
  | _ => throw .rejected

def conditional (inner : Concrete → Reading Sketch) (c : Concrete) : Reading Sketch :=
  match c.nodes with
  | [test, yes, no] => do
    let test ← inner test
    let yes ← inner yes
    let no ← inner no
    sketch c do return .conditional (← .one test) (← .one yes) (← .one no)
  | _ => throw .rejected

/-- An expression, given how to read the expressions within it. -/
def expressionWith (inner : Concrete → Reading Sketch) (c : Concrete) : Reading Sketch := do
  match ← c.construct? with
  | .identifier | .undefined | .propertyName => identifier c
  | .number => leaf c (.numericLiteral c.text)
  | .string => leaf c (.stringLiteral (Literal.valueOf c.text))
  | .regex => leaf c (.regularExpressionLiteral c.text)
  | .trueLiteral => leaf c .trueKeyword
  | .falseLiteral => leaf c .falseKeyword
  | .nullLiteral => leaf c .nullKeyword
  | .thisLiteral => leaf c .thisKeyword
  | .parenthesized => parenthesized inner c
  | .member => member inner c
  | .subscript => subscript inner c
  | .call => call inner c
  | .newExpression => construction inner c
  | .binary | .augmentedAssignment => binary inner c
  | .assignment => assignment inner c
  | .sequence => sequence inner c
  | .unary | .prefixUpdate =>
    match c.parts with
    | [.leaf op, operand] => prefixed c op.text (← inner operand)
    | _ => throw .rejected
  | .postfixUpdate =>
    match c.parts with
    | [operand, .leaf op] => postfixed c (← inner operand) op.text
    | _ => throw .rejected
  | .ternary => conditional inner c
  | _ => foreign c

/-- An expression that nests at most so deep. -/
def expressionWithin : Nat → Concrete → Reading Sketch
  | 0, _ => throw .rejected
  | n + 1, c => expressionWith (expressionWithin n) c

def expression (c : Concrete) : Reading Sketch := expressionWithin (c.height + 1) c

/-- The value behind a name, if any. -/
def initializer (c : Concrete) : Reading (Option Sketch) :=
  (c.part? .initializer).mapM fun clause => do expression (← clause.nodes.head?)

end Dartify.Abstraction
