import Dartify.Tree.Operator

/-! The kinds of node that a program is made of. -/
namespace Dartify

/-- The index of a node in its arena. -/
abbrev NodeId := Nat

/-- The types that are keywords and have a counterpart. -/
inductive TypeKeyword where
  | number | string | boolean | void | any
deriving DecidableEq, Inhabited

namespace TypeKeyword

def spelling : TypeKeyword → String
  | number => "number" | string => "string" | boolean => "boolean" | void => "void" | any => "any"

def all : List TypeKeyword := [number, string, boolean, void, any]

def ofSpelling? (s : String) : Option TypeKeyword := all.find? (·.spelling == s)

end TypeKeyword

/-- The word that opens a heritage clause. -/
inductive Heritage where
  | extends | implements
deriving DecidableEq, Inhabited

/-- A node with its children. A construct without a counterpart is `unsupported` and keeps only
its name. -/
inductive NodeKind where
  | sourceFile (statements : List NodeId) (marker : NodeId)
  /-- Carries the comments behind the last token. -/
  | endOfFile
  | variableStatement (declarations : NodeId)
  | variableDeclarationList (declarations : List NodeId)
  | variableDeclaration (name : NodeId) (type : Option NodeId) (initializer : Option NodeId)
  | expressionStatement (expression : NodeId)
  | block (statements : List NodeId)
  | ifStatement (condition consequence : NodeId) (alternative : Option NodeId)
  | forStatement (initializer condition increment : Option NodeId) (body : NodeId)
  | forInStatement (binding expression body : NodeId)
  | whileStatement (condition body : NodeId)
  | doStatement (body condition : NodeId)
  | switchStatement (expression : NodeId) (clauses : List NodeId)
  | caseClause (expression : NodeId) (statements : List NodeId)
  | defaultClause (statements : List NodeId)
  | breakStatement
  | returnStatement (expression : Option NodeId)
  | functionDeclaration (name : NodeId) (typeParameters : Option (List NodeId))
      (parameters : List NodeId) (returnType : Option NodeId) (body : NodeId)
  | classDeclaration (name : NodeId) (typeParameters : Option (List NodeId))
      (heritage : List NodeId) (members : List NodeId)
  | heritageClause (heritage : Heritage) (types : List NodeId)
  | constructor (parameters : List NodeId) (body : NodeId)
  | methodDeclaration (name : NodeId) (typeParameters : Option (List NodeId))
      (parameters : List NodeId) (returnType : Option NodeId) (body : NodeId)
  | propertyDeclaration (name : NodeId) (type : Option NodeId) (initializer : Option NodeId)
  | parameter (name : NodeId) (type : Option NodeId) (initializer : Option NodeId) (rest : Bool)
  | typeParameter (name : NodeId) (constraint : Option NodeId)
  | keywordType (keyword : TypeKeyword)
  | typeReference (name : NodeId) (arguments : Option (List NodeId))
  | identifier (text : String)
  | numericLiteral (text : String)
  /-- The decoded value. -/
  | stringLiteral (value : String)
  | regularExpressionLiteral (text : String)
  | trueKeyword
  | falseKeyword
  | nullKeyword
  | thisKeyword
  | parenthesized (expression : NodeId)
  | propertyAccess (expression name : NodeId)
  | elementAccess (expression argument : NodeId)
  | call (expression : NodeId) (arguments : List NodeId)
  | newExpression (expression : NodeId) (arguments : List NodeId)
  | binary (left : NodeId) (operator : BinaryOp) (right : NodeId)
  | prefixUnary (operator : PrefixOp) (operand : NodeId)
  | postfixUnary (operator : PostfixOp) (operand : NodeId)
  | conditional (condition whenTrue whenFalse : NodeId)
  | delete (expression : NodeId)
  | void (expression : NodeId)
  | typeOf (expression : NodeId)
  | unsupported (construct : String)
deriving DecidableEq, Inhabited

namespace NodeKind

/-- The name of a kind; for an unsupported node the name of its construct. -/
def name : NodeKind → String
  | sourceFile .. => "SourceFile"
  | endOfFile => "EndOfFile"
  | variableStatement .. => "VariableStatement"
  | variableDeclarationList .. => "VariableDeclarationList"
  | variableDeclaration .. => "VariableDeclaration"
  | expressionStatement .. => "ExpressionStatement"
  | block .. => "Block"
  | ifStatement .. => "IfStatement"
  | forStatement .. => "ForStatement"
  | forInStatement .. => "ForInStatement"
  | whileStatement .. => "WhileStatement"
  | doStatement .. => "DoStatement"
  | switchStatement .. => "SwitchStatement"
  | caseClause .. => "CaseClause"
  | defaultClause .. => "DefaultClause"
  | breakStatement => "BreakStatement"
  | returnStatement .. => "ReturnStatement"
  | functionDeclaration .. => "FunctionDeclaration"
  | classDeclaration .. => "ClassDeclaration"
  | heritageClause .. => "HeritageClause"
  | constructor .. => "Constructor"
  | methodDeclaration .. => "MethodDeclaration"
  | propertyDeclaration .. => "PropertyDeclaration"
  | parameter .. => "Parameter"
  | typeParameter .. => "TypeParameter"
  | keywordType .. => "KeywordType"
  | typeReference .. => "TypeReference"
  | identifier .. => "Identifier"
  | numericLiteral .. => "NumericLiteral"
  | stringLiteral .. => "StringLiteral"
  | regularExpressionLiteral .. => "RegularExpressionLiteral"
  | trueKeyword => "TrueKeyword"
  | falseKeyword => "FalseKeyword"
  | nullKeyword => "NullKeyword"
  | thisKeyword => "ThisKeyword"
  | parenthesized .. => "ParenthesizedExpression"
  | propertyAccess .. => "PropertyAccessExpression"
  | elementAccess .. => "ElementAccessExpression"
  | call .. => "CallExpression"
  | newExpression .. => "NewExpression"
  | binary .. => "BinaryExpression"
  | prefixUnary .. => "PrefixUnaryExpression"
  | postfixUnary .. => "PostfixUnaryExpression"
  | conditional .. => "ConditionalExpression"
  | delete .. => "DeleteExpression"
  | void .. => "VoidExpression"
  | typeOf .. => "TypeOfExpression"
  | unsupported construct => construct

/-- The children of a node in source order. -/
def children : NodeKind → List NodeId
  | sourceFile statements marker => statements ++ [marker]
  | endOfFile => []
  | variableStatement declarations => [declarations]
  | variableDeclarationList declarations => declarations
  | variableDeclaration name type initializer => name :: type.toList ++ initializer.toList
  | expressionStatement expression => [expression]
  | block statements => statements
  | ifStatement condition consequence alternative =>
    condition :: consequence :: alternative.toList
  | forStatement initializer condition increment body =>
    initializer.toList ++ condition.toList ++ increment.toList ++ [body]
  | forInStatement binding expression body => [binding, expression, body]
  | whileStatement condition body => [condition, body]
  | doStatement body condition => [body, condition]
  | switchStatement expression clauses => expression :: clauses
  | caseClause expression statements => expression :: statements
  | defaultClause statements => statements
  | breakStatement => []
  | returnStatement expression => expression.toList
  | functionDeclaration name typeParameters parameters returnType body =>
    name :: typeParameters.getD [] ++ parameters ++ returnType.toList ++ [body]
  | classDeclaration name typeParameters heritage members =>
    name :: typeParameters.getD [] ++ heritage ++ members
  | heritageClause _ types => types
  | constructor parameters body => parameters ++ [body]
  | methodDeclaration name typeParameters parameters returnType body =>
    name :: typeParameters.getD [] ++ parameters ++ returnType.toList ++ [body]
  | propertyDeclaration name type initializer => name :: type.toList ++ initializer.toList
  | parameter name type initializer _ => name :: type.toList ++ initializer.toList
  | typeParameter name constraint => name :: constraint.toList
  | keywordType _ => []
  | typeReference name arguments => name :: arguments.getD []
  | identifier _ => []
  | numericLiteral _ => []
  | stringLiteral _ => []
  | regularExpressionLiteral _ => []
  | trueKeyword => []
  | falseKeyword => []
  | nullKeyword => []
  | thisKeyword => []
  | parenthesized expression => [expression]
  | propertyAccess expression name => [expression, name]
  | elementAccess expression argument => [expression, argument]
  | call expression arguments => expression :: arguments
  | newExpression expression arguments => expression :: arguments
  | binary left _ right => [left, right]
  | prefixUnary _ operand => [operand]
  | postfixUnary _ operand => [operand]
  | conditional condition whenTrue whenFalse => [condition, whenTrue, whenFalse]
  | delete expression => [expression]
  | void expression => [expression]
  | typeOf expression => [expression]
  | unsupported _ => []

/-- Replaces the references to children. -/
def relabel (f : NodeId → NodeId) : NodeKind → NodeKind
  | sourceFile statements marker => sourceFile (statements.map f) (f marker)
  | endOfFile => endOfFile
  | variableStatement declarations => variableStatement (f declarations)
  | variableDeclarationList declarations => variableDeclarationList (declarations.map f)
  | variableDeclaration name type initializer =>
    variableDeclaration (f name) (type.map f) (initializer.map f)
  | expressionStatement expression => expressionStatement (f expression)
  | block statements => block (statements.map f)
  | ifStatement condition consequence alternative =>
    ifStatement (f condition) (f consequence) (alternative.map f)
  | forStatement initializer condition increment body =>
    forStatement (initializer.map f) (condition.map f) (increment.map f) (f body)
  | forInStatement binding expression body => forInStatement (f binding) (f expression) (f body)
  | whileStatement condition body => whileStatement (f condition) (f body)
  | doStatement body condition => doStatement (f body) (f condition)
  | switchStatement expression clauses => switchStatement (f expression) (clauses.map f)
  | caseClause expression statements => caseClause (f expression) (statements.map f)
  | defaultClause statements => defaultClause (statements.map f)
  | breakStatement => breakStatement
  | returnStatement expression => returnStatement (expression.map f)
  | functionDeclaration name typeParameters parameters returnType body =>
    functionDeclaration (f name) (typeParameters.map (·.map f)) (parameters.map f)
      (returnType.map f) (f body)
  | classDeclaration name typeParameters heritage members =>
    classDeclaration (f name) (typeParameters.map (·.map f)) (heritage.map f) (members.map f)
  | heritageClause heritage types => heritageClause heritage (types.map f)
  | constructor parameters body => constructor (parameters.map f) (f body)
  | methodDeclaration name typeParameters parameters returnType body =>
    methodDeclaration (f name) (typeParameters.map (·.map f)) (parameters.map f)
      (returnType.map f) (f body)
  | propertyDeclaration name type initializer =>
    propertyDeclaration (f name) (type.map f) (initializer.map f)
  | parameter name type initializer rest =>
    parameter (f name) (type.map f) (initializer.map f) rest
  | typeParameter name constraint => typeParameter (f name) (constraint.map f)
  | keywordType keyword => keywordType keyword
  | typeReference name arguments => typeReference (f name) (arguments.map (·.map f))
  | identifier text => identifier text
  | numericLiteral text => numericLiteral text
  | stringLiteral value => stringLiteral value
  | regularExpressionLiteral text => regularExpressionLiteral text
  | trueKeyword => trueKeyword
  | falseKeyword => falseKeyword
  | nullKeyword => nullKeyword
  | thisKeyword => thisKeyword
  | parenthesized expression => parenthesized (f expression)
  | propertyAccess expression name => propertyAccess (f expression) (f name)
  | elementAccess expression argument => elementAccess (f expression) (f argument)
  | call expression arguments => call (f expression) (arguments.map f)
  | newExpression expression arguments => newExpression (f expression) (arguments.map f)
  | binary left operator right => binary (f left) operator (f right)
  | prefixUnary operator operand => prefixUnary operator (f operand)
  | postfixUnary operator operand => postfixUnary operator (f operand)
  | conditional condition whenTrue whenFalse =>
    conditional (f condition) (f whenTrue) (f whenFalse)
  | delete expression => delete (f expression)
  | void expression => void (f expression)
  | typeOf expression => typeOf (f expression)
  | unsupported construct => unsupported construct

theorem getD_map_list (f : NodeId → NodeId) (ids : Option (List NodeId)) :
    (ids.map (·.map f)).getD [] = (ids.getD []).map f := by
  cases ids <;> rfl

theorem toList_map_option (f : NodeId → NodeId) (id : Option NodeId) :
    (id.map f).toList = id.toList.map f := by
  cases id <;> rfl

theorem children_relabel (f : NodeId → NodeId) (k : NodeKind) :
    (k.relabel f).children = k.children.map f := by
  cases k <;> simp [relabel, children, getD_map_list, toList_map_option]

end NodeKind

end Dartify
