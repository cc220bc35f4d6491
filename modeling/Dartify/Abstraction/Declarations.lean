import Dartify.Abstraction.Expressions
import Dartify.Abstraction.Types

/-! Variables, functions and classes, given how to read the statements within them. -/
namespace Dartify.Abstraction

open Syntax

/-! ## Variables -/

def declarator (c : Concrete) : Reading Sketch := do
  let name ← binding (← c.nodes.head?)
  let type ← annotation c
  let value ← initializer c
  sketch c do return .variableDeclaration (← .one name) (← .optional type) (← .optional value)

def declarationList (c : Concrete) : Reading Sketch := do
  let declarations ← (c.nodes.filter (·.is .declarator)).mapM declarator
  sketch c do return .variableDeclarationList (← .many declarations)

/-! ## Functions -/

/-- A pattern without the dots in front of it. -/
def dotless (pattern : Concrete) : Option Concrete :=
  if pattern.is .restPattern then pattern.nodes.head? else some pattern

def parameter (c : Concrete) : Reading Sketch := do
  let pattern ← (undecorated c).head?
  let rest := pattern.is .restPattern
  let name ← binding (← dotless pattern)
  let type ← annotation c
  let value ← initializer c
  sketch c do return .parameter (← .one name) (← .optional type) (← .optional value) rest

def parameters (c : Concrete) : Reading (List Sketch) := do
  (← c.part? .parameters).nodes.mapM parameter

variable (statement : Concrete → Reading Sketch)

def block (c : Concrete) : Reading Sketch := do
  let statements ← c.nodes.mapM statement
  sketch c do return .block (← .many statements)

def body (c : Concrete) : Reading Sketch := do block statement (← c.part? .block)

/-- A function that stands where `outer` stands. -/
def function (c outer : Concrete) : Reading Sketch := do
  let name ← identifier (← c.part? .identifier)
  let typeParameters ← typeParameters c
  let parameters ← parameters c
  let result ← returnType c
  let body ← body statement c
  sketch outer do
    return .functionDeclaration (← .one name) (← .optionalMany typeParameters)
      (← .many parameters) (← .optional result) (← .one body)

/-! ## Classes -/

/-- The supertypes of an extends clause: values, each with the type arguments that follow it or
that it carries itself. -/
def supertypeGroups : List Concrete → List (Concrete × Option Concrete)
  | [] => []
  | [value] => if value.is .typeArguments then [] else [carried value]
  | value :: next :: more =>
    if value.is .typeArguments then supertypeGroups (next :: more)
    else if next.is .typeArguments && !value.is .instantiation then
      (value, some next) :: supertypeGroups more
    else carried value :: supertypeGroups (next :: more)
where
  /-- A value and the type arguments within it. -/
  carried (value : Concrete) : Concrete × Option Concrete :=
    if value.is .instantiation then (value.nodes.headD value, value.part? .typeArguments)
    else (value, none)

/-- A supertype; it ends where its type arguments end. -/
def supertype (value : Concrete) (list : Option Concrete) : Reading Sketch := do
  let site ← site? value
  let last ← site? (list.getD value)
  let name ← expression value
  let arguments ← list.mapM typeArguments
  return .filled { site with stop := last.stop } do
    return .typeReference (← .one name) (← .optionalMany arguments)

def heritageClause (c : Concrete) : Reading Sketch := do
  match ← c.construct? with
  | .extendsClause =>
    let types ← (supertypeGroups c.nodes).mapM fun (value, list) => supertype value list
    sketch c do return .heritageClause .extends (← .many types)
  | .implementsClause =>
    let types ← c.nodes.mapM type
    sketch c do return .heritageClause .implements (← .many types)
  | _ => foreign c

def isHeritage (c : Concrete) : Bool := c.is .extendsClause || c.is .implementsClause

/-- The words in front of the name of a member. -/
def modifiers (c : Concrete) : List String :=
  (Concrete.node .method (c.parts.takeWhile fun p => !p.isNode)).words

/-- A method with a body. An accessor is kept by name, and the name `constructor` is special. -/
def method (c : Concrete) : Reading Sketch := do
  match (modifiers c).find? fun word => word == "get" || word == "set" with
  | some word => unsupported c (word ++ " accessor")
  | none =>
    let named ← c.nodes.head?
    let parameters ← parameters c
    if named.text == "constructor" then
      let body ← body statement c
      sketch c do return .constructor (← .many parameters) (← .one body)
    else
      let name ← memberName named
      let typeParameters ← typeParameters c
      let result ← returnType c
      let body ← body statement c
      sketch c do
        return .methodDeclaration (← .one name) (← .optionalMany typeParameters)
          (← .many parameters) (← .optional result) (← .one body)

def field (c : Concrete) : Reading Sketch := do
  let name ← memberName (← (undecorated c).head?)
  let type ← annotation c
  let value ← initializer c
  sketch c do return .propertyDeclaration (← .one name) (← .optional type) (← .optional value)

def classMember (c : Concrete) : Reading Sketch := do
  match ← c.construct? with
  | .method => method statement c
  | .field => field c
  | _ => foreign c

/-- A class that stands where `outer` stands. -/
def classDeclaration (c outer : Concrete) : Reading Sketch := do
  let name ← identifier (← c.part? .typeIdentifier)
  let typeParameters ← typeParameters c
  let heritage ← (c.nodes.filter isHeritage).mapM heritageClause
  let members ← (← c.part? .classBody).nodes.mapM (classMember statement)
  sketch outer do
    return .classDeclaration (← .one name) (← .optionalMany typeParameters) (← .many heritage)
      (← .many members)

end Dartify.Abstraction
