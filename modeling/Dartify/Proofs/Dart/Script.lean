import Mathlib.Tactic.Tauto
import Dartify.Dart.Emission

/-! Writing a node follows a script: tokens, and the nodes to go on with, in order. The script
depends on the kind of the node alone, but for a constructor, which asks for the class around it. A
node without a counterpart has none: it fails before it writes a token. -/
namespace Dartify.Dart

/-- One step of writing a node. -/
inductive Step where
  /-- Goes on with another node. -/
  | enter (id : NodeId)
  | code (text : String)
  | lineFeed
deriving DecidableEq

namespace Script

def each (ids : List NodeId) : List Step := ids.map .enter

def maybe (id : Option NodeId) : List Step := each id.toList

def separated : List NodeId → List Step
  | [] => []
  | id :: ids => .enter id :: ids.flatMap fun i => [.code ",", .enter i]

def bracketed (opening closing : String) (ids : List NodeId) : List Step :=
  .code opening :: separated ids ++ [.code closing]

def typeOrVar (type : Option NodeId) : List Step :=
  match type with
  | some t => [.enter t]
  | none => [.code "var"]

/-- What follows a word, if it is there. -/
def introduced (word : String) (id : Option NodeId) : List Step :=
  match id with
  | some i => [.code word, .enter i]
  | none => []

def typeList (ids : Option (List NodeId)) : List Step :=
  match ids with
  | some ids => bracketed "<" ">" ids
  | none => []

/-- A function or a method behind what may not be generic. -/
def callable (typeParameters : Option (List NodeId)) (f : Fault) (name : NodeId)
    (parameters : List NodeId) (returnType : Option NodeId) (body : NodeId) :
    Except Fault (List Step) :=
  if typeParameters.isSome then .error f
  else
    .ok (maybe returnType ++ .enter name :: bracketed "(" ")" parameters ++ [.enter body])

end Script

open Script in
/-- The steps of a node, given the name of the class around it, or what it lacks. -/
def script (className : Option NodeId) : NodeKind → Except Fault (List Step)
  | .sourceFile statements marker => .ok (each statements ++ [.enter marker])
  | .endOfFile => .ok []
  | .variableStatement declarations => .ok [.enter declarations, .code ";", .lineFeed]
  | .variableDeclarationList declarations => .ok (each declarations)
  | .variableDeclaration name type value =>
    .ok (typeOrVar type ++ .enter name :: introduced "=" value)
  | .expressionStatement expression => .ok [.enter expression, .code ";"]
  | .block statements => .ok (.code "\x7b" :: each statements ++ [.code "\x7d"])
  | .ifStatement condition consequence alternative =>
    .ok ([.code "if", .code "(", .enter condition, .code ")", .enter consequence] ++
      introduced "else" alternative)
  | .forStatement init condition increment body =>
    .ok (.code "for" :: .code "(" :: maybe init ++ .code ";" :: maybe condition ++
      .code ";" :: maybe increment ++ [.code ")", .enter body])
  | .forInStatement binding expression body =>
    .ok [.code "for", .code "(", .enter binding, .code "in", .enter expression, .code ")",
      .enter body]
  | .whileStatement condition body =>
    .ok [.code "while", .code "(", .enter condition, .code ")", .enter body]
  | .doStatement body condition =>
    .ok [.code "do", .enter body, .code "while", .code "(", .enter condition, .code ")", .code ";"]
  | .switchStatement expression clauses =>
    .ok ([.code "switch", .code "(", .enter expression, .code ")", .code "\x7b"] ++ each clauses ++
      [.code "\x7d"])
  | .caseClause expression statements =>
    .ok ([.code "case", .enter expression, .code ":"] ++ each statements)
  | .defaultClause statements => .ok ([.code "default", .code ":"] ++ each statements)
  | .breakStatement => .ok [.code "break", .code ";"]
  | .returnStatement expression => .ok (.code "return" :: maybe expression ++ [.code ";"])
  | .functionDeclaration name typeParameters parameters returnType body =>
    callable typeParameters .genericFunction name parameters returnType body
  | .classDeclaration name typeParameters heritage members =>
    .ok ([.code "class", .enter name] ++ typeList typeParameters ++ each heritage ++
      .code "\x7b" :: each members ++ [.code "\x7d"])
  | .heritageClause heritage types =>
    if heritage = .extends ∧ types.length > 1 then .error .multipleInheritance
    else .ok (.code (heritageKeyword heritage) :: separated types)
  | .constructor parameters body =>
    match className with
    | some name => .ok (.enter name :: bracketed "(" ")" parameters ++ [.enter body])
    | none => .error .noEnclosingClass
  | .methodDeclaration name typeParameters parameters returnType body =>
    callable typeParameters .genericMethod name parameters returnType body
  | .propertyDeclaration name type value =>
    .ok (typeOrVar type ++ .enter name :: introduced "=" value ++ [.code ";"])
  | .parameter name type value rest =>
    if rest then .error .restParameter
    else
      match value with
      | some v =>
        .ok (.code "[" :: maybe type ++ [.enter name, .code "=", .enter v, .code "]"])
      | none => .ok (maybe type ++ [.enter name])
  | .typeParameter name constraint => .ok (.enter name :: introduced "extends" constraint)
  | .keywordType keyword => .ok [.code (typeKeyword keyword)]
  | .typeReference name arguments => .ok (.enter name :: typeList arguments)
  | .identifier text => .ok [.code text]
  | .numericLiteral text => .ok [.code text]
  | .stringLiteral value => .ok [.code (stringLiteral value)]
  | .regularExpressionLiteral text => .ok [.code text]
  | .trueKeyword => .ok [.code "true"]
  | .falseKeyword => .ok [.code "false"]
  | .nullKeyword => .ok [.code "null"]
  | .thisKeyword => .ok [.code "this"]
  | .parenthesized expression => .ok [.code "(", .enter expression, .code ")"]
  | .propertyAccess expression name => .ok [.enter expression, .code ".", .enter name]
  | .elementAccess expression argument =>
    .ok [.enter expression, .code "[", .enter argument, .code "]"]
  | .call expression arguments => .ok (.enter expression :: bracketed "(" ")" arguments)
  | .newExpression expression arguments =>
    .ok (.code "new" :: .enter expression :: bracketed "(" ")" arguments)
  | .binary left operator right => .ok [.enter left, .code operator.spelling, .enter right]
  | .prefixUnary operator operand => .ok [.code operator.spelling, .enter operand]
  | .postfixUnary operator operand => .ok [.enter operand, .code operator.spelling]
  | .conditional condition whenTrue whenFalse =>
    .ok [.enter condition, .code "?", .enter whenTrue, .code ":", .enter whenFalse]
  | .delete _ => .error .deleteOperator
  | .void _ => .error .voidOperator
  | .typeOf _ => .error .typeOfOperator
  | .unsupported construct => .error (.unsupportedNode construct)

/-! ## The nodes that a script enters -/

namespace Script

@[simp] theorem enter_mem_each {i : NodeId} {ids : List NodeId} :
    Step.enter i ∈ each ids ↔ i ∈ ids := by
  simp [each]

@[simp] theorem enter_mem_maybe {i : NodeId} {id : Option NodeId} :
    Step.enter i ∈ maybe id ↔ i ∈ id.toList :=
  enter_mem_each

@[simp] theorem enter_mem_separated {i : NodeId} {ids : List NodeId} :
    Step.enter i ∈ separated ids ↔ i ∈ ids := by
  cases ids <;> simp [separated]

@[simp] theorem enter_mem_bracketed {i : NodeId} {opening closing : String} {ids : List NodeId} :
    Step.enter i ∈ bracketed opening closing ids ↔ i ∈ ids := by
  simp [bracketed]

@[simp] theorem enter_mem_typeOrVar {i : NodeId} {type : Option NodeId} :
    Step.enter i ∈ typeOrVar type ↔ i ∈ type.toList := by
  cases type <;> simp [typeOrVar]

@[simp] theorem enter_mem_introduced {i : NodeId} {word : String} {id : Option NodeId} :
    Step.enter i ∈ introduced word id ↔ i ∈ id.toList := by
  cases id <;> simp [introduced]

@[simp] theorem enter_mem_typeList {i : NodeId} {ids : Option (List NodeId)} :
    Step.enter i ∈ typeList ids ↔ i ∈ ids.getD [] := by
  cases ids <;> simp [typeList]

theorem enter_mem_callable {typeParameters : Option (List NodeId)} {f : Fault} {name : NodeId}
    {parameters : List NodeId} {returnType : Option NodeId} {body : NodeId} {steps : List Step}
    (ok : callable typeParameters f name parameters returnType body = .ok steps) {child : NodeId}
    (mem : child ∈ name :: typeParameters.getD [] ++ parameters ++ returnType.toList ++ [body]) :
    Step.enter child ∈ steps := by
  cases typeParameters with
  | none =>
    cases ok
    simp at mem ⊢
    tauto
  | some ids => cases ok

end Script

/-- A script leaves no child out. -/
theorem enter_mem_script {className : Option NodeId} {k : NodeKind} {steps : List Step}
    (ok : script className k = .ok steps) {child : NodeId} (mem : child ∈ k.children) :
    Step.enter child ∈ steps := by
  cases k with
  | functionDeclaration name typeParameters parameters returnType body =>
    exact Script.enter_mem_callable ok mem
  | methodDeclaration name typeParameters parameters returnType body =>
    exact Script.enter_mem_callable ok mem
  | heritageClause heritage types =>
    rw [script] at ok
    split at ok
    · cases ok
    · cases ok
      exact List.mem_cons_of_mem _ (Script.enter_mem_separated.mpr mem)
  | constructor parameters body =>
    cases className with
    | none => cases ok
    | some name =>
      cases ok
      simp [NodeKind.children] at mem ⊢
      tauto
  | parameter name type value rest =>
    cases rest with
    | true => cases ok
    | false =>
      cases value <;> cases ok <;> simp [NodeKind.children] at mem ⊢ <;> tauto
  | delete expression => cases ok
  | void expression => cases ok
  | typeOf expression => cases ok
  | unsupported construct => cases ok
  | _ =>
    cases ok
    simp [NodeKind.children] at mem ⊢ <;> tauto

/-! ## Following a script -/

namespace Emit

/-- Takes one step, given how to visit a node. -/
def perform (visit : NodeId → Emit Unit) : Step → Emit Unit
  | .enter id => visit id
  | .code text => code text
  | .lineFeed => piece .lineFeed

/-- Takes the steps of a script in order. -/
def follow (visit : NodeId → Emit Unit) : List Step → Emit Unit
  | [] => pure ()
  | step :: steps => do
    perform visit step
    follow visit steps

variable (visit : NodeId → Emit Unit)

@[simp] theorem follow_nil : follow visit [] = pure () := rfl

@[simp] theorem follow_enter (id : NodeId) (steps : List Step) :
    follow visit (.enter id :: steps) = (do visit id; follow visit steps) := rfl

@[simp] theorem follow_code (text : String) (steps : List Step) :
    follow visit (.code text :: steps) = (do code text; follow visit steps) := rfl

@[simp] theorem follow_lineFeed (steps : List Step) :
    follow visit (.lineFeed :: steps) = (do piece .lineFeed; follow visit steps) := rfl

@[simp] theorem follow_append (first rest : List Step) :
    follow visit (first ++ rest) = (do follow visit first; follow visit rest) := by
  induction first with
  | nil => simp
  | cons step first ih =>
    rw [List.cons_append, follow, follow, ih, bind_assoc]

@[simp] theorem follow_each (ids : List NodeId) :
    follow visit (Script.each ids) = each visit ids := by
  induction ids with
  | nil => rfl
  | cons id ids ih =>
    have rest : follow visit (Script.each ids) = each visit ids := ih
    rw [Script.each, List.map_cons, follow_enter, ← Script.each, rest]
    rfl

@[simp] theorem follow_maybe (id : Option NodeId) :
    follow visit (Script.maybe id) = optional visit id := by
  cases id with
  | none => rfl
  | some i => simp [Script.maybe, Script.each, optional, Option.forM]

theorem follow_commas (ids : List NodeId) :
    follow visit (ids.flatMap fun i => [.code ",", .enter i]) =
      ids.forM (fun i => do code ","; visit i) := by
  induction ids with
  | nil => rfl
  | cons id ids ih =>
    rw [List.flatMap_cons, follow_append, ih]
    simp [List.forM]

@[simp] theorem follow_separated (ids : List NodeId) :
    follow visit (Script.separated ids) = separated visit ids := by
  cases ids with
  | nil => rfl
  | cons id ids => rw [Script.separated, follow_enter, follow_commas, separated]

@[simp] theorem follow_bracketed (opening closing : String) (ids : List NodeId) :
    follow visit (Script.bracketed opening closing ids) = bracketed visit opening closing ids := by
  simp [Script.bracketed, bracketed]

@[simp] theorem follow_typeOrVar (type : Option NodeId) :
    follow visit (Script.typeOrVar type) = typeOrVar visit type := by
  cases type <;> simp [Script.typeOrVar, typeOrVar]

@[simp] theorem follow_initializer (value : Option NodeId) :
    follow visit (Script.introduced "=" value) = initializer visit value := by
  cases value <;> simp [Script.introduced, initializer]

@[simp] theorem follow_typeList (ids : Option (List NodeId)) :
    follow visit (Script.typeList ids) = typeList visit ids := by
  cases ids <;> simp [Script.typeList, typeList]

/-- What a script does: its steps, or the fault that it names. -/
def act (tree : Tree) (n : Node) (steps : Except Fault (List Step)) : Emit Unit :=
  match steps with
  | .ok steps => follow visit steps
  | .error f => fault tree n f

/-- Writing a node is following its script. -/
theorem node_eq_act (tree : Tree) (id : NodeId) (n : Node) :
    node visit tree id n = act visit tree n (script (tree.enclosingClassName id) n.kind) := by
  unfold node
  cases h : n.kind with
  | functionDeclaration name typeParameters parameters returnType body =>
    cases typeParameters <;> simp [script, Script.callable, act]
  | methodDeclaration name typeParameters parameters returnType body =>
    cases typeParameters <;> simp [script, Script.callable, act]
  | heritageClause heritage types =>
    by_cases several : heritage = .extends ∧ types.length > 1
    · simp only [script, act, if_pos several]
    · simp only [script, act, if_neg several, follow_code, follow_separated]
  | constructor parameters body =>
    cases enclosing : tree.enclosingClassName id <;> simp [script, act]
  | parameter name type value rest =>
    cases rest <;> cases value <;> simp [script, act]
  | ifStatement condition consequence alternative =>
    cases alternative <;> simp [script, act, Script.introduced]
  | typeParameter name constraint =>
    cases constraint <;> simp [script, act, Script.introduced]
  | _ => simp [script, act]

end Emit

end Dartify.Dart
