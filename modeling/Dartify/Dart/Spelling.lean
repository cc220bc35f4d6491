import Dartify.Tree.Kind
import Dartify.Literal.Encode

/-! The words of Dart that have another spelling in the source language, or none. -/
namespace Dartify.Dart

def typeKeyword : TypeKeyword → String
  | .number => "num"
  | .string => "String"
  | .boolean => "bool"
  | .void => "void"
  | .any => "dynamic"

def heritageKeyword : Heritage → String
  | .extends => "extends"
  | .implements => "implements"

def stringLiteral (value : String) : String := String.ofList (Literal.encode value.toList)

end Dartify.Dart
