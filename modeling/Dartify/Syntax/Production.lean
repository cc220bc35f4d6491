import Dartify.Syntax.Concrete
import Dartify.Syntax.Lexical

/-! The productions of the grammar: which nodes a construct consists of, and in which order. A
construct that is kept by name only, or whose nodes may be anything, has no entry. -/
namespace Dartify.Syntax

namespace Construct

/-- Names and literals: constructs of a single token. -/
def isAtom : Construct → Bool
  | identifier | undefined | propertyName | typeIdentifier | number | string | regex
  | trueLiteral | falseLiteral | nullLiteral | thisLiteral => true
  | _ => false

/-- Constructs that are part of another and stand for nothing themselves. -/
def isClause : Construct → Bool
  | decorator | ascription | initializer | arguments | typeArguments | typeParameters
  | parameters | elseClause | constraint | defaultType => true
  | _ => false

end Construct

namespace Token

/-- Whether a token is spelled as a name. -/
def isName (t : Token) : Bool := t.kind == .word && Lexical.word t.text.toList == t.text.length

/-- Whether a token can be what an atom of a kind consists of. -/
def suits (t : Token) : Construct → Bool
  | .identifier | .undefined | .propertyName | .typeIdentifier => t.isName
  | .trueLiteral => t.text == "true"
  | .falseLiteral => t.text == "false"
  | .nullLiteral => t.text == "null"
  | .thisLiteral => t.text == "this"
  | _ => true

end Token

/-- A place in a production: how many nodes stand there, and what each of them must be. -/
inductive Slot where
  | one (test : Concrete → Bool)
  | maybe (test : Concrete → Bool)
  | many (test : Concrete → Bool)

namespace Slot

/-- Whether nodes fill slots one by one. An optional slot takes what it can. -/
def fill : List Slot → List Concrete → Bool
  | [], [] => true
  | [], _ :: _ => false
  | .one _ :: _, [] => false
  | .one test :: slots, c :: cs => test c && fill slots cs
  | .maybe _ :: slots, [] => fill slots []
  | .maybe test :: slots, c :: cs => if test c then fill slots cs else fill slots (c :: cs)
  | .many test :: slots, cs => fill slots (cs.dropWhile test)

end Slot

namespace Concrete

/-- What a function returns: a type, or a claim about its arguments. -/
def statesResult (c : Concrete) : Bool :=
  c.is .ascription || c.is (.named "type_predicate_annotation") ||
    c.is (.named "asserts_annotation")

/-- A node that stands for something: an operand, a pattern, a name or a statement. -/
def isMain (c : Concrete) : Bool := c.construct?.any (!·.isClause)

/-- The name of a member: a word, a literal, or an expression in brackets. -/
def isMemberName (c : Concrete) : Bool :=
  c.construct?.any (·.isAtom) || c.is (.named "private_property_identifier") ||
    (c.is (.named "computed_property_name") && c.first?.any (·.text == "["))

end Concrete

namespace Construct

open Slot Concrete

/-- A slot for a node of one construct. -/
def only (k : Construct) : Slot := .one (·.is k)

/-- A slot for a node of a construct that may be missing. -/
def optional (k : Construct) : Slot := .maybe (·.is k)

/-- A slot for any number of nodes of a construct. -/
def several (k : Construct) : Slot := .many (·.is k)

/-- The slots of a construct. -/
def slots? : Construct → Option (List Slot)
  | variableStatement => some [several declarator]
  | declarator => some [one isMain, optional ascription, optional initializer]
  | initializer => some [one isMain]
  | expressionStatement => some [one isMain]
  | ifStatement => some [one isMain, one isMain, optional elseClause]
  | elseClause => some [one isMain]
  | forStatement => some [only slot, only slot, only slot, one isMain]
  | slot => some [maybe isMain]
  | breakStatement => some []
  | returnStatement => some [maybe isMain]
  | functionDeclaration =>
    some [only identifier, optional typeParameters, only parameters, maybe statesResult,
      only block]
  | parameters => some [several parameter]
  | parameter =>
    some [several decorator, one isMain, optional ascription, optional initializer]
  | restPattern => some [one isMain]
  | classDeclaration =>
    some [several decorator, only typeIdentifier, optional typeParameters,
      optional extendsClause, optional implementsClause, only classBody]
  | method =>
    some [one isMemberName, optional typeParameters, only parameters, maybe statesResult,
      only block]
  | field =>
    some [several decorator, one isMemberName, optional ascription, optional initializer]
  | typeParameters => some [several typeParameter]
  | typeParameter => some [only typeIdentifier, optional constraint, optional defaultType]
  | genericType => some [one isMain, only typeArguments]
  | parenthesized =>
    some [one isMain, maybe fun c => c.is ascription || c.is typeArguments]
  | call => some [one isMain, optional typeArguments, only arguments]
  | newExpression => some [one isMain, optional typeArguments, optional arguments]
  | instantiation => some [one isMain, only typeArguments]
  | sequence => some [one isMain, one isMain, many isMain]
  | _ => none

end Construct

namespace Concrete

/-- Whether parts are what the production of a construct asks for. -/
def fits (k : Construct) (parts : List Concrete) : Bool :=
  if k.isAtom then
    match parts with
    | [leaf t] => t.suits k
    | _ => false
  else k.slots?.all (Slot.fill · (parts.filter isNode))

end Concrete

end Dartify.Syntax
