import Dartify.Comment.Cursor
import Dartify.Dart.Fault
import Dartify.Dart.Piece
import Dartify.Dart.Spelling

/-! Writing a tree as Dart. A node first writes its leading comments that are still unwritten,
then its tokens and children; the first node without a counterpart ends the run. -/
namespace Dartify.Dart

/-- What has been written, and the comments presented so far. -/
structure Draft where
  pieces : Array Piece
  cursor : Comment.Cursor
deriving Inhabited

def Draft.empty : Draft := ⟨#[], .initial⟩

/-- Why a run ends early. -/
inductive Stop where
  | fault (error : Error)
  /-- Nested deeper than allowed, as a class whose name holds its own constructor would be. -/
  | depth
deriving DecidableEq, Inhabited

/-- A run keeps what was written before it stopped. -/
abbrev Emit := ExceptT Stop (StateM Draft)

namespace Emit

def piece (p : Piece) : Emit Unit := modify fun d => { d with pieces := d.pieces.push p }

def code (text : String) : Emit Unit := piece (.code text)

/-- Presents a comment to the cursor and writes it if it is new. -/
def comment (text : List Char) (r : Comment.Range) : Emit Unit := do
  let (fresh, cursor) := (← get).cursor.claim r.start
  modify fun d => { d with cursor := cursor }
  if fresh then piece (.comment (r.text text) r.endsLine)

def fault (tree : Tree) (node : Node) (f : Fault) : Emit Unit :=
  throw (.fault ⟨f, tree.location node⟩)

variable (visit : NodeId → Emit Unit)

def each (ids : List NodeId) : Emit Unit := ids.forM visit

def optional (id : Option NodeId) : Emit Unit := id.forM visit

/-- Separated by commas, with none behind the last. -/
def separated : List NodeId → Emit Unit
  | [] => pure ()
  | id :: ids => do
    visit id
    ids.forM fun i => do
      code ","
      visit i

def bracketed (opening closing : String) (ids : List NodeId) : Emit Unit := do
  code opening
  separated visit ids
  code closing

def typeOrVar (type : Option NodeId) : Emit Unit :=
  match type with
  | some t => visit t
  | none => code "var"

def initializer (value : Option NodeId) : Emit Unit :=
  match value with
  | some v => do
    code "="
    visit v
  | none => pure ()

def typeList (ids : Option (List NodeId)) : Emit Unit :=
  match ids with
  | some ids => bracketed visit "<" ">" ids
  | none => pure ()

/-- The tokens and children of a node, given how to visit a child. -/
def node (tree : Tree) (id : NodeId) (n : Node) : Emit Unit := do
  match n.kind with
  | .sourceFile statements marker =>
    each visit statements
    visit marker
  | .endOfFile => pure ()
  | .variableStatement declarations =>
    visit declarations
    code ";"
    piece .lineFeed
  | .variableDeclarationList declarations => each visit declarations
  | .variableDeclaration name type value =>
    typeOrVar visit type
    visit name
    initializer visit value
  | .expressionStatement expression =>
    visit expression
    code ";"
  | .block statements =>
    code "\x7b"
    each visit statements
    code "\x7d"
  | .ifStatement condition consequence alternative =>
    code "if"
    code "("
    visit condition
    code ")"
    visit consequence
    match alternative with
    | some other => do
      code "else"
      visit other
    | none => pure ()
  | .forStatement init condition increment body =>
    code "for"
    code "("
    optional visit init
    code ";"
    optional visit condition
    code ";"
    optional visit increment
    code ")"
    visit body
  | .forInStatement binding expression body =>
    code "for"
    code "("
    visit binding
    code "in"
    visit expression
    code ")"
    visit body
  | .whileStatement condition body =>
    code "while"
    code "("
    visit condition
    code ")"
    visit body
  | .doStatement body condition =>
    code "do"
    visit body
    code "while"
    code "("
    visit condition
    code ")"
    code ";"
  | .switchStatement expression clauses =>
    code "switch"
    code "("
    visit expression
    code ")"
    code "\x7b"
    each visit clauses
    code "\x7d"
  | .caseClause expression statements =>
    code "case"
    visit expression
    code ":"
    each visit statements
  | .defaultClause statements =>
    code "default"
    code ":"
    each visit statements
  | .breakStatement =>
    code "break"
    code ";"
  | .returnStatement expression =>
    code "return"
    optional visit expression
    code ";"
  | .functionDeclaration name typeParameters parameters returnType body =>
    if typeParameters.isSome then fault tree n .genericFunction
    else
      optional visit returnType
      visit name
      bracketed visit "(" ")" parameters
      visit body
  | .classDeclaration name typeParameters heritage members =>
    code "class"
    visit name
    typeList visit typeParameters
    each visit heritage
    code "\x7b"
    each visit members
    code "\x7d"
  | .heritageClause heritage types =>
    if heritage = .extends ∧ types.length > 1 then fault tree n .multipleInheritance
    else
      code (heritageKeyword heritage)
      separated visit types
  | .constructor parameters body =>
    match tree.enclosingClassName id with
    | some name => do
      visit name
      bracketed visit "(" ")" parameters
      visit body
    | none => fault tree n .noEnclosingClass
  | .methodDeclaration name typeParameters parameters returnType body =>
    if typeParameters.isSome then fault tree n .genericMethod
    else
      optional visit returnType
      visit name
      bracketed visit "(" ")" parameters
      visit body
  | .propertyDeclaration name type value =>
    typeOrVar visit type
    visit name
    initializer visit value
    code ";"
  | .parameter name type value rest =>
    if rest then fault tree n .restParameter
    else
      match value with
      | some v => do
        code "["
        optional visit type
        visit name
        code "="
        visit v
        code "]"
      | none => do
        optional visit type
        visit name
  | .typeParameter name constraint =>
    visit name
    match constraint with
    | some c => do
      code "extends"
      visit c
    | none => pure ()
  | .keywordType keyword => code (typeKeyword keyword)
  | .typeReference name arguments =>
    visit name
    typeList visit arguments
  | .identifier text => code text
  | .numericLiteral text => code text
  | .stringLiteral value => code (stringLiteral value)
  | .regularExpressionLiteral text => code text
  | .trueKeyword => code "true"
  | .falseKeyword => code "false"
  | .nullKeyword => code "null"
  | .thisKeyword => code "this"
  | .parenthesized expression =>
    code "("
    visit expression
    code ")"
  | .propertyAccess expression name =>
    visit expression
    code "."
    visit name
  | .elementAccess expression argument =>
    visit expression
    code "["
    visit argument
    code "]"
  | .call expression arguments =>
    visit expression
    bracketed visit "(" ")" arguments
  | .newExpression expression arguments =>
    code "new"
    visit expression
    bracketed visit "(" ")" arguments
  | .binary left operator right =>
    visit left
    code operator.spelling
    visit right
  | .prefixUnary operator operand =>
    code operator.spelling
    visit operand
  | .postfixUnary operator operand =>
    visit operand
    code operator.spelling
  | .conditional condition whenTrue whenFalse =>
    visit condition
    code "?"
    visit whenTrue
    code ":"
    visit whenFalse
  | .delete _ => fault tree n .deleteOperator
  | .void _ => fault tree n .voidOperator
  | .typeOf _ => fault tree n .typeOfOperator
  | .unsupported construct => fault tree n (.unsupportedNode construct)

end Emit

/-- Writes a node, nesting at most to the given depth. An index outside the arena writes
nothing. -/
def visit (tree : Tree) : Nat → NodeId → Emit Unit
  | 0, _ => throw .depth
  | depth + 1, id =>
    match tree.node? id with
    | some n => do
      (tree.leadingComments n).forM (Emit.comment tree.text)
      Emit.node (visit tree depth) tree id n
    | none => pure ()

/-- The nesting that every tree needs at most in which class names are leaves. -/
def depthLimit (tree : Tree) : Nat := tree.arena.size + 1

/-- How writing a tree ends, and what was written until then. -/
def run (tree : Tree) : Except Stop Unit × Draft :=
  ((visit tree (depthLimit tree) tree.root).run).run Draft.empty

/-- The pieces of a tree. -/
def emit (tree : Tree) : Except Stop (List Piece) :=
  match run tree with
  | (.ok _, draft) => .ok draft.pieces.toList
  | (.error stop, _) => .error stop

end Dartify.Dart
