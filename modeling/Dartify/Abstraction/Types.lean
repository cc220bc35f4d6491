import Dartify.Abstraction.Basic
import Dartify.Syntax.Production

/-! Types and type parameters. -/
namespace Dartify.Abstraction

open Syntax

/-- The name of a type with arguments; one with points is kept by name. -/
def typeName (c : Concrete) : Reading Sketch :=
  if c.is .typeIdentifier then identifier c else foreign c

/-- A type, given how to read the types within it. -/
def typeWith (inner : Concrete → Reading Sketch) (c : Concrete) : Reading Sketch := do
  match ← c.construct? with
  | .ascription => inner (← essence c)
  | .predefinedType =>
    match TypeKeyword.ofSpelling? c.text with
    | some keyword => leaf c (.keywordType keyword)
    | none => unsupported c ("predefined_type '" ++ c.text ++ "'")
  | .typeIdentifier =>
    let name ← identifier c
    sketch c do return .typeReference (← .one name) none
  | .genericType =>
    let name ← typeName (← c.nodes.head?)
    let arguments ← (c.part? .typeArguments).mapM fun list => list.nodes.mapM inner
    sketch c do return .typeReference (← .one name) (← .optionalMany arguments)
  | _ => foreign c

/-- A type that nests at most so deep. -/
def typeWithin : Nat → Concrete → Reading Sketch
  | 0, _ => throw .rejected
  | n + 1, c => typeWith (typeWithin n) c

def type (c : Concrete) : Reading Sketch := typeWithin (c.height + 1) c

/-- The type arguments in angle brackets. -/
def typeArguments (c : Concrete) : Reading (List Sketch) := c.nodes.mapM type

/-- The type that is written behind a name, if any. -/
def annotation (c : Concrete) : Reading (Option Sketch) := optional type (c.part? .ascription)

def returnType (c : Concrete) : Reading (Option Sketch) :=
  optional type (c.nodes.find? Concrete.statesResult)

def typeParameter (c : Concrete) : Reading Sketch := do
  let name ← identifier (← c.part? .typeIdentifier)
  let bound ← (c.part? .constraint).mapM fun clause => do type (← essence clause)
  sketch c do return .typeParameter (← .one name) (← .optional bound)

def typeParameters (c : Concrete) : Reading (Option (List Sketch)) :=
  (c.part? .typeParameters).mapM fun list => list.nodes.mapM typeParameter

end Dartify.Abstraction
