import Dartify.Syntax.Token

/-! The concrete tree of a source text. Its leaves are tokens, trivia included, so the tree spells
out the text that it was read from. -/
namespace Dartify.Syntax

/-- The productions of the grammar. Those that have no counterpart in the target, and of which
only the extent matters, are known by name. -/
inductive Construct where
  | sourceFile
  | variableStatement
  | declarator
  | initializer
  | ascription
  | expressionStatement
  | block
  | ifStatement
  | elseClause
  | forStatement
  /-- A part of a loop header that may be empty. -/
  | slot
  | forInStatement
  | whileStatement
  | doStatement
  | switchStatement
  | switchCase
  | switchDefault
  | breakStatement
  | returnStatement
  | exportStatement
  | functionDeclaration
  | parameters
  | parameter
  | restPattern
  | classDeclaration
  | extendsClause
  | implementsClause
  | classBody
  | method
  | field
  | decorator
  | typeParameters
  | typeParameter
  | constraint
  | defaultType
  | predefinedType
  | typeIdentifier
  | genericType
  | typeArguments
  | identifier
  | undefined
  | number
  | string
  | regex
  | trueLiteral
  | falseLiteral
  | nullLiteral
  | thisLiteral
  | parenthesized
  | member
  | propertyName
  | subscript
  | call
  | arguments
  | newExpression
  | instantiation
  | nonNull
  | binary
  | assignment
  | augmentedAssignment
  | sequence
  | unary
  | prefixUpdate
  | postfixUpdate
  | ternary
  | named (construct : String)
deriving DecidableEq, Inhabited

/-- The name under which a construct is reported where it has no counterpart or misses a part. -/
def Construct.name : Construct → String
  | ascription => "type_annotation"
  | constraint => "constraint"
  | exportStatement => "export_statement"
  | restPattern => "rest_pattern"
  | decorator => "decorator"
  | undefined => "undefined"
  | number => "number"
  | string => "string"
  | thisLiteral => "this"
  | parenthesized => "parenthesized_expression"
  | member => "member_expression"
  | subscript => "subscript_expression"
  | call => "call_expression"
  | instantiation => "instantiation_expression"
  | nonNull => "non_null_expression"
  | named construct => construct
  | _ => ""

inductive Concrete where
  | leaf (token : Token)
  | node (construct : Construct) (parts : List Concrete)
deriving Inhabited

namespace Concrete

mutual

/-- The tokens of a tree in order. -/
def tokens : Concrete → List Token
  | leaf t => [t]
  | node _ parts => tokensOf parts

def tokensOf : List Concrete → List Token
  | [] => []
  | c :: cs => tokens c ++ tokensOf cs

end

theorem tokensOf_append (as bs : List Concrete) :
    tokensOf (as ++ bs) = tokensOf as ++ tokensOf bs := by
  induction as with
  | nil => rfl
  | cons a as ih => simp [tokensOf, ih]

mutual

/-- The number of nested nodes on the longest way down. -/
def height : Concrete → Nat
  | leaf _ => 0
  | node _ parts => heightOf parts + 1

def heightOf : List Concrete → Nat
  | [] => 0
  | c :: cs => max (height c) (heightOf cs)

end

def construct? : Concrete → Option Construct
  | leaf _ => none
  | node k _ => some k

def parts : Concrete → List Concrete
  | leaf _ => []
  | node _ cs => cs

/-- Whether this is a node of a given construct. -/
def is (c : Concrete) (k : Construct) : Bool := c.construct? == some k

def isNode : Concrete → Bool
  | leaf _ => false
  | node _ _ => true

/-- The nodes among the parts. -/
def nodes (c : Concrete) : List Concrete := c.parts.filter isNode

/-- The texts of the tokens among the parts. -/
def words (c : Concrete) : List String :=
  c.parts.filterMap fun p =>
    match p with
    | leaf t => some t.text
    | node _ _ => none

/-- The first node of a given construct among the parts. -/
def part? (c : Concrete) (k : Construct) : Option Concrete := c.parts.find? (·.is k)

mutual

/-- The first token of a tree. -/
def first? : Concrete → Option Token
  | leaf t => some t
  | node _ parts => firstOf? parts

def firstOf? : List Concrete → Option Token
  | [] => none
  | c :: cs => (first? c).or (firstOf? cs)

end

mutual

/-- The last token of a tree. -/
def last? : Concrete → Option Token
  | leaf t => some t
  | node _ parts => lastOf? parts

def lastOf? : List Concrete → Option Token
  | [] => none
  | c :: cs => (lastOf? cs).or (last? c)

end

mutual

theorem first?_eq : (c : Concrete) → c.first? = c.tokens.head?
  | leaf _ => rfl
  | node _ parts => firstOf?_eq parts

theorem firstOf?_eq : (cs : List Concrete) → firstOf? cs = (tokensOf cs).head?
  | [] => rfl
  | c :: cs => by simp [firstOf?, tokensOf, first?_eq c, firstOf?_eq cs, List.head?_append]

end

mutual

theorem last?_eq : (c : Concrete) → c.last? = c.tokens.getLast?
  | leaf _ => rfl
  | node _ parts => lastOf?_eq parts

theorem lastOf?_eq : (cs : List Concrete) → lastOf? cs = (tokensOf cs).getLast?
  | [] => rfl
  | c :: cs => by simp [lastOf?, tokensOf, last?_eq c, lastOf?_eq cs, List.getLast?_append]

end

/-- The text from the first token to the last. -/
def text (c : Concrete) : String :=
  match c.tokens with
  | [] => ""
  | t :: ts => String.ofList (t.text.toList ++ Token.spell ts)

end Concrete

end Dartify.Syntax
