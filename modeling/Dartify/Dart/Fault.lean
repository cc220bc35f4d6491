import Dartify.Tree.Basic

/-! What keeps a tree from being written as Dart. -/
namespace Dartify.Dart

/-- The causes of failure. -/
inductive Fault where
  | unsupportedNode (construct : String)
  | restParameter
  | genericFunction
  | genericMethod
  | multipleInheritance
  | deleteOperator
  | voidOperator
  | typeOfOperator
  /-- A constructor that stands in no class. -/
  | noEnclosingClass
deriving DecidableEq, Inhabited

/-- A construct that Dart lacks, or a tree of a shape that no reader delivers. -/
inductive Fault.Category where
  | unsupportedConstruct
  | structuralInvariant
deriving DecidableEq

namespace Fault

def category : Fault → Category
  | noEnclosingClass => .structuralInvariant
  | _ => .unsupportedConstruct

def message : Fault → String
  | unsupportedNode construct => "Unsupported node type " ++ construct
  | restParameter => "rest parameters are unsupported"
  | genericFunction => "generic functions are unsupported"
  | genericMethod => "generic methods are unsupported"
  | multipleInheritance => "multiple inheritance is unsupported"
  | deleteOperator => "delete operator is unsupported"
  | voidOperator => "void operator is unsupported"
  | typeOfOperator => "typeof operator is unsupported"
  | noEnclosingClass => "cannot find outer class node"

end Fault

/-- A fault and the node at which it was met. -/
structure Error where
  fault : Fault
  location : Location
deriving DecidableEq, Inhabited

def Error.render (e : Error) : String := e.location.render ++ ": " ++ e.fault.message

end Dartify.Dart
