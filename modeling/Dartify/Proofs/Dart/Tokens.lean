import Dartify.Proofs.Dart.Coverage
import Dartify.Proofs.Dart.Rendering
import Dartify.Proofs.Tree.Census

/-! The tokens of a tree. A script names its tokens in the order in which they are written; what
comes between them belongs to the nodes that it enters. Main statements: a run that goes through
writes the tokens that each node of the tree has of its own, in another order; and a weight of
tokens, under which the words of the language weigh nothing but for the comma, comes from the leaves
of the tree, the names of its classes and the commas that its nodes ask for. -/
namespace Dartify

namespace NodeKind

/-- The text of a name, a number or a regular expression. -/
@[simp]
def leafText? : NodeKind → Option String
  | identifier text => some text
  | numericLiteral text => some text
  | regularExpressionLiteral text => some text
  | _ => none

/-- The token of a leaf: its text, or the literal of its value. -/
@[simp]
def leafToken? : NodeKind → Option String
  | stringLiteral value => some (Dart.stringLiteral value)
  | k => k.leafText?

/-- The children that commas stand between. -/
@[simp]
def commaList : NodeKind → List NodeId
  | call _ arguments => arguments
  | newExpression _ arguments => arguments
  | functionDeclaration _ _ parameters _ _ => parameters
  | methodDeclaration _ _ parameters _ _ => parameters
  | constructor parameters _ => parameters
  | classDeclaration _ typeParameters _ _ => typeParameters.getD []
  | typeReference _ arguments => arguments.getD []
  | heritageClause _ types => types
  | _ => []

@[simp]
def isSequence : NodeKind → Bool
  | binary _ operator _ => operator = .comma
  | _ => false

def commas (k : NodeKind) : Nat := (k.commaList.length - 1) + if k.isSequence then 1 else 0

theorem leafToken?_eq_some_iff {k : NodeKind} {token : String} :
    k.leafToken? = some token ↔
      k.leafText? = some token ∨
        ∃ value, k = stringLiteral value ∧ Dart.stringLiteral value = token := by
  cases k with
  | stringLiteral value => simp
  | _ => simp

end NodeKind

namespace Tree

def leafToken? (t : Tree) (id : NodeId) : Option String := (t.kind? id).bind (·.leafToken?)

/-- The name that is written in front of a constructor. -/
def classText? (t : Tree) (id : NodeId) : Option String :=
  match t.kind? id with
  | some (.constructor _ _) =>
    (t.enclosingClassName id).bind fun name => (t.kind? name).bind (·.leafText?)
  | _ => none

def commas (t : Tree) (id : NodeId) : Nat := ((t.kind? id).map (·.commas)).getD 0

end Tree

namespace Dart

/-! ## The tokens of a script -/

def Step.code? : Step → Option String
  | code text => some text
  | _ => none

def codes (steps : List Step) : List String := steps.filterMap Step.code?

@[simp] theorem codes_nil : codes [] = [] := rfl

@[simp] theorem codes_enter (id : NodeId) (steps : List Step) :
    codes (.enter id :: steps) = codes steps := rfl

@[simp] theorem codes_code (text : String) (steps : List Step) :
    codes (.code text :: steps) = text :: codes steps := rfl

@[simp] theorem codes_lineFeed (steps : List Step) : codes (.lineFeed :: steps) = codes steps := rfl

@[simp] theorem codes_append (first rest : List Step) :
    codes (first ++ rest) = codes first ++ codes rest := List.filterMap_append

@[simp] theorem codes_each (ids : List NodeId) : codes (Script.each ids) = [] := by
  induction ids with
  | nil => rfl
  | cons id ids ih => exact ih

@[simp] theorem codes_maybe (id : Option NodeId) : codes (Script.maybe id) = [] :=
  codes_each _

theorem codes_commas (ids : List NodeId) :
    codes (ids.flatMap fun i => [.code ",", .enter i]) = List.replicate ids.length "," := by
  induction ids with
  | nil => rfl
  | cons id ids ih => exact congrArg ("," :: ·) ih

@[simp] theorem codes_separated (ids : List NodeId) :
    codes (Script.separated ids) = List.replicate (ids.length - 1) "," := by
  cases ids with
  | nil => rfl
  | cons id ids =>
    rw [Script.separated, codes_enter, codes_commas, List.length_cons, Nat.add_sub_cancel]

@[simp] theorem codes_bracketed (opening closing : String) (ids : List NodeId) :
    codes (Script.bracketed opening closing ids) =
      opening :: List.replicate (ids.length - 1) "," ++ [closing] := by
  simp [Script.bracketed]

/-- A script that is followed to its end writes its own tokens and those of the nodes that it
enters. -/
theorem codes_ofScript {inner : NodeId → Course} {steps : List Step}
    (done : (Course.ofScript inner steps).stop = none) :
    (codes (Course.ofScript inner steps).steps).Perm
      (codes steps ++ (entered steps).flatMap fun c => codes (inner c).steps) := by
  -- What a node writes is moved behind the tokens of the steps that follow.
  induction steps with
  | nil => exact List.Perm.refl _
  | cons step steps ih =>
    cases step with
    | enter c =>
      rw [Course.ofScript] at done ⊢
      obtain ⟨-, after, split⟩ := Course.append_stop done
      rw [split, codes_append, codes_enter, Script.entered_enter, List.flatMap_cons]
      exact ((ih after).append_left _).trans (List.perm_append_comm_assoc ..)
    | code text => exact (ih done).cons text
    | lineFeed => exact ih done

/-! ## The tokens of a node -/

/-- The tokens that a node has of its own, a constructor also the name of its class. -/
def ownCodes (t : Tree) (id : NodeId) : List String :=
  (t.classText? id).toList ++
    match t.kind? id with
    | none => []
    | some k =>
      match script (t.enclosingClassName id) k with
      | .ok steps => codes steps
      | .error _ => []

section Runs

variable {t : Tree}

theorem codes_course_identifier {depth : Nat} {id : NodeId} {text : String}
    (kind : t.kind? id = some (.identifier text)) :
    codes (course t (depth + 1) id).steps = [text] := by
  obtain ⟨n, found, kind⟩ := Option.map_eq_some_iff.mp kind
  simp only [course, found, kind, script]
  rfl

theorem codes_borrowed (named : t.ClassesNamed) {depth : Nat} {id : NodeId} {k : NodeKind}
    (kind : t.kind? id = some k) (deep : k.children ≠ [] → 0 < depth) :
    (k.borrowed (t.enclosingClassName id)).flatMap (fun c => codes (course t depth c).steps) =
      (t.classText? id).toList := by
  rw [Tree.classText?, kind]
  cases k with
  | constructor parameters body =>
    obtain ⟨rest, rfl⟩ := Nat.exists_eq_add_of_lt (deep (by simp [NodeKind.children]))
    rw [Nat.zero_add]
    cases enclosing : t.enclosingClassName id with
    | none => rfl
    | some name =>
      obtain ⟨text, kind⟩ := named.identifier enclosing
      simp [NodeKind.borrowed, codes_course_identifier kind, kind, NodeKind.leafText?]
  | _ => rfl

/-- A visit that goes through writes the tokens that each node below has of its own. -/
theorem codes_course (built : t.Built) (named : t.ClassesNamed) {depth n id : Nat}
    (deep : id < depth) (limit : id < n) (done : (course t depth id).stop = none) :
    (codes (course t depth id).steps).Perm ((t.writingWithin n id).flatMap (ownCodes t)) := by
  induction depth generalizing n id with
  | zero => cases deep
  | succ depth ih =>
    cases n with
    | zero => cases limit
    | succ n =>
      cases found : t.node? id with
      | none =>
        simp [course, found, Course.empty, Tree.writingWithin, Tree.kind?, ownCodes,
          Tree.classText?]
      | some here =>
        have kind : t.kind? id = some here.kind := by rw [Tree.kind?, found]; rfl
        have lower : ∀ c ∈ here.kind.children, c < id := fun c mem => built.arena.child_lt ⟨_, kind, mem⟩
        have deep' : here.kind.children ≠ [] → 0 < depth := by
          intro some
          obtain ⟨c, mem⟩ := List.exists_mem_of_ne_nil _ some
          exact Nat.zero_lt_of_lt (Nat.lt_of_lt_of_le (lower c mem) (Nat.le_of_lt_succ deep))
        obtain ⟨steps, ok, followed, whole⟩ := course_steps found done
        have inner : ∀ c ∈ here.kind.writingOrder, (codes (course t depth c).steps).Perm
            ((t.writingWithin n c).flatMap (ownCodes t)) := by
          intro c mem
          rw [NodeKind.mem_writingOrder] at mem
          have below := lower c mem
          exact ih (Nat.lt_of_lt_of_le below (Nat.le_of_lt_succ deep))
            (Nat.lt_of_lt_of_le below (Nat.le_of_lt_succ limit))
            (Course.ofScript_enter followed (enter_mem_script ok mem)).1
        have own : ownCodes t id = (here.kind.borrowed (t.enclosingClassName id)).flatMap
            (fun c => codes (course t depth c).steps) ++ codes steps := by
          rw [ownCodes, codes_borrowed named kind deep', kind]
          simp only [ok]
        have split := codes_ofScript followed
        rw [entered_script ok, List.flatMap_append] at split
        rw [whole, codes_enter, Tree.writingWithin, kind, List.flatMap_cons, own,
          List.flatMap_assoc, List.append_assoc]
        -- The name of a class is written with its constructor, in front of the children.
        apply split.trans
        apply (List.perm_append_comm_assoc ..).trans
        exact ((List.Perm.flatMap_left _ inner).append_left _).append_left _

theorem codes_wholeCourse (built : t.Built) (named : t.ClassesNamed)
    (done : (wholeCourse t).stop = none) :
    (codes (wholeCourse t).steps).Perm (t.writingOrder.flatMap (ownCodes t)) :=
  codes_course built named (Nat.lt_succ_of_lt built.root) built.root done

end Runs

/-! ## What is written for some steps -/

/-- The pieces of some steps, given the cursor in front of them. -/
def writes (t : Tree) (c : Comment.Cursor) (steps : List Step) : List Piece :=
  (Mark.admitted c (steps.flatMap (Step.marks t))).map (Mark.piece t.text)

theorem emit_eq_writes {t : Tree} {pieces : List Piece} (ok : emit t = .ok pieces) :
    (wholeCourse t).stop = none ∧ pieces = writes t .initial (wholeCourse t).steps :=
  (emit_eq_ok_iff t pieces).mp ok

theorem tokens_admitted (c : Comment.Cursor) (text : List Char) (ms : List Mark) :
    tokens ((Mark.admitted c ms).map (Mark.piece text)) = tokens (ms.map (Mark.piece text)) := by
  induction ms generalizing c with
  | nil => rfl
  | cons m ms ih =>
    cases m with
    | comment r =>
      rw [Mark.admitted]
      split
      · exact ih _
      · exact ih c
    | code s => exact congrArg (s :: ·) (ih c)
    | lineFeed => exact ih c

theorem tokens_writes (t : Tree) (c : Comment.Cursor) (steps : List Step) :
    tokens (writes t c steps) = codes steps := by
  rw [writes, tokens_admitted]
  induction steps with
  | nil => rfl
  | cons step steps ih =>
    cases step with
    | enter id =>
      rw [List.flatMap_cons, List.map_append, codes_enter, ← ih, tokens, List.filterMap_append]
      have silent : (((t.commentsOf id).map Mark.comment).map (Mark.piece t.text)).filterMap
          Piece.code? = [] := by
        simp [Mark.piece, Piece.code?, List.filterMap_eq_nil_iff]
      rw [Step.marks, silent]
      rfl
    | code text => exact congrArg (text :: ·) ih
    | lineFeed => exact ih

theorem comment_mem_admitted {c : Comment.Cursor} {ms : List Mark} {r : Comment.Range}
    (mem : Mark.comment r ∈ Mark.admitted c ms) : Mark.comment r ∈ ms := by
  have kept : r ∈ (Mark.admitted c ms).filterMap Mark.comment? :=
    List.mem_filterMap.mpr ⟨_, mem, rfl⟩
  rw [comments_admitted] at kept
  obtain ⟨m, marked, comment⟩ := List.mem_filterMap.mp (Comment.Cursor.mem_of_mem_kept kept)
  cases m with
  | comment r' =>
    cases comment
    exact marked
  | code text => cases comment
  | lineFeed => cases comment

theorem comment_mem_writes {t : Tree} {c : Comment.Cursor} {steps : List Step} {text : String}
    {endsLine : Bool} (mem : Piece.comment text endsLine ∈ writes t c steps) :
    ∃ id, ∃ r ∈ t.commentsOf id, text = r.text t.text := by
  obtain ⟨m, admitted, piece⟩ := List.mem_map.mp mem
  cases m with
  | comment r =>
    cases piece
    obtain ⟨step, -, marked⟩ := List.mem_flatMap.mp (comment_mem_admitted admitted)
    obtain ⟨id, -, reported⟩ := comment_mem_marks_iff.mp marked
    exact ⟨id, r, reported, rfl⟩
  | code s => cases piece
  | lineFeed => cases piece

/-! ## Weights -/

/-- The words that scripts hold, whatever the tree. -/
def vocabulary : List String :=
  ["var", "=", "if", "(", ")", "else", "for", ";", "in", "while", "do", "switch", "\x7b", "\x7d",
    "case", ":", "default", "break", "return", ",", "class", "<", ">", "[", "]", "extends",
    "implements", "num", "String", "bool", "void", "dynamic", "true", "false", "null", "this", ".",
    "new", "?"] ++
    BinaryOp.all.map (·.spelling) ++ PrefixOp.all.map (·.spelling) ++
    PostfixOp.all.map (·.spelling)

def weigh (weight : String → Nat) (texts : List String) : Nat := (texts.map weight).sum

section Weights

variable {weight : String → Nat}

@[simp] theorem weigh_nil : weigh weight [] = 0 := rfl

@[simp] theorem weigh_cons (text : String) (texts : List String) :
    weigh weight (text :: texts) = weight text + weigh weight texts := List.sum_cons

@[simp] theorem weigh_append (texts more : List String) :
    weigh weight (texts ++ more) = weigh weight texts + weigh weight more := by
  rw [weigh, List.map_append, List.sum_append, ← weigh, ← weigh]

@[simp] theorem weigh_replicate (n : Nat) (text : String) :
    weigh weight (List.replicate n text) = n * weight text := by
  rw [weigh, List.map_replicate, List.sum_replicate_nat]

theorem weigh_flatMap {α : Type} (f : α → List String) (as : List α) :
    weigh weight (as.flatMap f) = (as.map fun a => weigh weight (f a)).sum := by
  induction as with
  | nil => rfl
  | cons a as ih => rw [List.flatMap_cons, weigh_append, ih, List.map_cons, List.sum_cons]

variable (silent : ∀ word ∈ vocabulary, word ≠ "," → weight word = 0)

include silent

theorem weight_binaryOp (operator : BinaryOp) :
    weight operator.spelling = (if operator = .comma then 1 else 0) * weight "," := by
  split
  · rename_i comma
    rw [comma, Nat.one_mul]
    rfl
  · rename_i other
    rw [Nat.zero_mul]
    apply silent _ (by simp [vocabulary, BinaryOp.mem_all])
    revert other
    cases operator <;> decide

theorem weight_prefixOp (operator : PrefixOp) : weight operator.spelling = 0 := by
  cases operator <;> exact silent _ (by decide) (by decide)

theorem weight_postfixOp (operator : PostfixOp) : weight operator.spelling = 0 := by
  cases operator <;> exact silent _ (by decide) (by decide)

theorem weight_keyword (keyword : TypeKeyword) : weight (typeKeyword keyword) = 0 := by
  cases keyword <;> exact silent _ (by decide) (by decide)

theorem weight_heritage (heritage : Heritage) : weight (heritageKeyword heritage) = 0 := by
  cases heritage <;> exact silent _ (by decide) (by decide)

theorem weigh_typeOrVar (type : Option NodeId) :
    weigh weight (codes (Script.typeOrVar type)) = 0 := by
  cases type with
  | none => simp (disch := decide) [Script.typeOrVar, silent]
  | some type => rfl

theorem weigh_introduced {word : String} (known : word ∈ vocabulary) (other : word ≠ ",")
    (id : Option NodeId) : weigh weight (codes (Script.introduced word id)) = 0 := by
  cases id with
  | none => rfl
  | some id => simp [Script.introduced, silent word known other]

theorem weigh_typeList (ids : Option (List NodeId)) :
    weigh weight (codes (Script.typeList ids)) = ((ids.getD []).length - 1) * weight "," := by
  cases ids with
  | none => simp [Script.typeList]
  | some ids => simp (disch := decide) [Script.typeList, silent]

theorem weigh_callable {typeParameters : Option (List NodeId)} {f : Fault} {name : NodeId}
    {parameters : List NodeId} {returnType : Option NodeId} {body : NodeId} {steps : List Step}
    (ok : Script.callable typeParameters f name parameters returnType body = .ok steps) :
    weigh weight (codes steps) = (parameters.length - 1) * weight "," := by
  cases typeParameters with
  | none =>
    cases ok
    simp (disch := decide) [silent]
  | some ids => cases ok

/-- A script has the token of a leaf and the commas that its node asks for, and else only words. -/
theorem weigh_script {className : Option NodeId} {k : NodeKind} {steps : List Step}
    (ok : script className k = .ok steps) :
    weigh weight (codes steps) = weigh weight k.leafToken?.toList + k.commas * weight "," := by
  cases k with
  | functionDeclaration name typeParameters parameters returnType body =>
    simpa [NodeKind.commas] using weigh_callable silent ok
  | methodDeclaration name typeParameters parameters returnType body =>
    simpa [NodeKind.commas] using weigh_callable silent ok
  | heritageClause heritage types =>
    rw [script] at ok
    split at ok
    · cases ok
    · cases ok
      simp [NodeKind.commas, weight_heritage silent]
  | constructor parameters body =>
    cases className with
    | none => cases ok
    | some name =>
      cases ok
      simp (disch := decide) [NodeKind.commas, silent]
  | parameter name type value rest =>
    cases rest with
    | true => cases ok
    | false =>
      cases value <;> cases ok <;>
        simp (disch := decide) [NodeKind.commas, silent]
  | delete expression => cases ok
  | void expression => cases ok
  | typeOf expression => cases ok
  | unsupported construct => cases ok
  | _ =>
    cases ok
    simp (disch := decide) [NodeKind.commas, silent, weight_binaryOp silent,
      weight_prefixOp silent, weight_postfixOp silent, weight_keyword silent,
      weigh_typeOrVar silent, weigh_introduced silent, weigh_typeList silent]

theorem weigh_ownCodes {t : Tree} {id : NodeId} (through : ownStop t id = none) :
    weigh weight (ownCodes t id) = weigh weight (t.classText? id).toList +
      weigh weight (t.leafToken? id).toList + t.commas id * weight "," := by
  rw [ownCodes, weigh_append, Nat.add_assoc]
  congr 1
  unfold ownStop at through
  unfold Tree.leafToken? Tree.commas Tree.kind?
  cases found : t.node? id with
  | none => simp
  | some n =>
    simp only [found] at through
    cases answer : script (t.enclosingClassName id) n.kind with
    | ok steps => simpa [answer] using weigh_script silent answer
    | error f =>
      rw [answer] at through
      cases through

theorem weigh_wholeCourse {t : Tree} (built : t.Built) (once : t.ChildrenOnce)
    (named : t.ClassesNamed) (done : (wholeCourse t).stop = none) :
    weigh weight (codes (wholeCourse t).steps) =
      ∑ id ∈ t.reached, (weigh weight (t.classText? id).toList +
        weigh weight (t.leafToken? id).toList + t.commas id * weight ",") := by
  rw [← built.sum_writingOrder once, weigh,
    ((codes_wholeCourse built named done).map weight).sum_eq, ← weigh, weigh_flatMap]
  rw [wholeCourse_stop built named, List.findSome?_eq_none_iff] at done
  congr 1
  apply List.map_congr_left
  exact fun id listed => weigh_ownCodes silent (done id listed)

end Weights

/-! ## A tree with a constructor, a list and a comma operator -/

/-- A class with a comment, and a constructor that makes a call: `// c`, and behind it
`class A { constructor(a) { f(A, (a, b)); } }`. -/
def callingClass : Tree where
  fileName := "a.ts"
  text := ['/', '/', ' ', 'c', '\n']
  arena :=
    let site : Site := ⟨5, 5, 5, 1, 0⟩
    Arena.empty.push (.identifier "A") site
      |>.push (.identifier "a") site
      |>.push (.parameter 1 none none false) site
      |>.push (.identifier "f") site
      |>.push (.identifier "A") site
      |>.push (.identifier "a") site
      |>.push (.identifier "b") site
      |>.push (.binary 5 .comma 6) site
      |>.push (.parenthesized 7) site
      |>.push (.call 3 [4, 8]) site
      |>.push (.expressionStatement 9) site
      |>.push (.block [10]) site
      |>.push (.constructor [2] 11) site
      |>.push (.classDeclaration 0 none [] [12]) ⟨5, 5, 0, 1, 0⟩
      |>.push .endOfFile site
      |>.push (.sourceFile [13] 14) ⟨5, 5, 0, 1, 0⟩
  root := 15

theorem built_callingClass : callingClass.Built := by
  refine ⟨?_, by decide⟩
  iterate 16 refine .push ?_ _ _ (by decide)
  exact .empty

theorem childrenOnce_callingClass : callingClass.ChildrenOnce := by decide

theorem lt_of_kind?_callingClass {id : NodeId} {k : NodeKind}
    (kind : callingClass.kind? id = some k) : id < 16 := by
  obtain ⟨n, found, -⟩ := Option.map_eq_some_iff.mp kind
  exact (Array.getElem?_eq_some_iff.mp found).1

theorem classesNamed_callingClass : callingClass.ClassesNamed := by
  intro id name typeParameters heritage members kind
  have only : ∀ i : Fin 16, callingClass.kind? i = some (.classDeclaration 0 none [] [12]) ∨
      (callingClass.kind? i).all (·.name ≠ "ClassDeclaration") := by
    decide
  rcases only ⟨id, lt_of_kind?_callingClass kind⟩ with same | other
  · rw [kind] at same
    cases same
    exact ⟨"A", rfl⟩
  · simp [kind, NodeKind.name] at other

theorem emit_callingClass : ∃ pieces, emit callingClass = .ok pieces ∧
    render pieces = " // c\n class A \x7b A ( a ) \x7b f ( A , ( a , b ) ) ; \x7d \x7d" := by
  have out : (emit callingClass).toOption.map render =
      some " // c\n class A \x7b A ( a ) \x7b f ( A , ( a , b ) ) ; \x7d \x7d" := by
    decide
  obtain ⟨pieces, ok, rendered⟩ := Option.map_eq_some_iff.mp out
  exact ⟨pieces, ok_of_toOption ok, rendered⟩

end Dart

end Dartify
