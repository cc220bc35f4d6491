import Dartify.Proofs.Dart.Lacking
import Dartify.Proofs.Dart.Progress

/-! The brackets of a program. Each script has its own brackets matched, and what is written for a
node that it enters stands between two of its tokens; putting matched brackets anywhere into matched
brackets keeps them matched. Main statement: the brackets of a whole program match, and so do those
of what is written at each visit. -/
namespace Dartify.Dart

def isBracket (c : Char) : Bool := ['(', ')', '[', ']', '{', '}'].contains c

def brackets (text : List Char) : List Char := text.filter isBracket

/-- Brackets that are nested: behind each opening one stand its inner ones, the closing one of the
same shape, and the rest. -/
inductive Matched : List Char → Prop
  | nil : Matched []
  | enclosed {opening closing : Char} {inner rest : List Char}
      (pair : (opening, closing) ∈ [('(', ')'), ('[', ']'), ('{', '}')])
      (within : Matched inner) (behind : Matched rest) :
      Matched (opening :: inner ++ closing :: rest)

namespace Matched

theorem round : Matched ['(', ')'] := .enclosed (by decide) .nil .nil

theorem square : Matched ['[', ']'] := .enclosed (by decide) .nil .nil

theorem curly : Matched ['{', '}'] := .enclosed (by decide) .nil .nil

theorem append {first rest : List Char} (h : Matched first) (h' : Matched rest) :
    Matched (first ++ rest) := by
  induction h with
  | nil => exact h'
  | enclosed pair within behind ih ih' =>
    rw [List.append_assoc, List.cons_append]
    exact .enclosed pair within ih'

/-- Matched brackets may stand anywhere among matched brackets. -/
theorem insert {whole more : List Char} (h : Matched whole) (h' : Matched more)
    {front back : List Char} (cut : whole = front ++ back) : Matched (front ++ (more ++ back)) := by
  induction h generalizing front back with
  | nil =>
    obtain ⟨rfl, rfl⟩ := List.append_eq_nil_iff.mp cut.symm
    simpa using h'
  | @enclosed opening closing inner rest pair within behind ih ih' =>
    cases front with
    | nil =>
      rw [List.nil_append] at cut ⊢
      rw [← cut]
      exact h'.append (.enclosed pair within behind)
    | cons o front =>
      obtain ⟨rfl, tails⟩ := List.cons.inj cut
      rcases List.append_eq_append_iff.mp tails with ⟨middle, rfl, split⟩ | ⟨middle, rfl, rfl⟩
      · cases middle with
        | nil =>
          -- The cut is right in front of the closing bracket.
          rw [List.nil_append] at split
          subst split
          have inside : Matched (inner ++ (more ++ [])) := ih (List.append_nil inner).symm
          simpa using Matched.enclosed pair inside behind
        | cons c middle =>
          obtain ⟨rfl, rfl⟩ := List.cons.inj split
          simpa using Matched.enclosed pair within (ih' rfl)
      · simpa using Matched.enclosed pair (ih rfl) behind

end Matched

/-! ## The brackets of a script -/

def bracketsOf (steps : List Step) : List Char :=
  (codes steps).flatMap fun text => brackets text.toList

namespace Script

@[simp] theorem bracketsOf_nil : bracketsOf [] = [] := rfl

@[simp] theorem bracketsOf_enter (id : NodeId) (steps : List Step) :
    bracketsOf (.enter id :: steps) = bracketsOf steps := rfl

@[simp] theorem bracketsOf_code (text : String) (steps : List Step) :
    bracketsOf (.code text :: steps) = brackets text.toList ++ bracketsOf steps := rfl

@[simp] theorem bracketsOf_lineFeed (steps : List Step) :
    bracketsOf (.lineFeed :: steps) = bracketsOf steps := rfl

@[simp] theorem bracketsOf_append (first rest : List Step) :
    bracketsOf (first ++ rest) = bracketsOf first ++ bracketsOf rest := by
  simp [bracketsOf]

@[simp] theorem bracketsOf_each (ids : List NodeId) : bracketsOf (each ids) = [] := by
  simp [bracketsOf]

@[simp] theorem bracketsOf_maybe (id : Option NodeId) : bracketsOf (maybe id) = [] := by
  simp [bracketsOf]

@[simp] theorem bracketsOf_separated (ids : List NodeId) : bracketsOf (separated ids) = [] := by
  have comma : brackets ",".toList = [] := by decide
  rw [bracketsOf, codes_separated, List.flatMap_eq_nil_iff]
  intro text mem
  rw [List.eq_of_mem_replicate mem, comma]

@[simp] theorem bracketsOf_bracketed (opening closing : String) (ids : List NodeId) :
    bracketsOf (bracketed opening closing ids) =
      brackets opening.toList ++ brackets closing.toList := by
  simp [bracketed]

@[simp] theorem bracketsOf_typeOrVar (type : Option NodeId) : bracketsOf (typeOrVar type) = [] := by
  cases type <;> simp [typeOrVar, brackets, isBracket]

theorem bracketsOf_introduced {word : String} (plain : brackets word.toList = [])
    (id : Option NodeId) : bracketsOf (introduced word id) = [] := by
  cases id with
  | none => rfl
  | some id => simp [introduced, plain]

@[simp] theorem bracketsOf_typeList (ids : Option (List NodeId)) :
    bracketsOf (typeList ids) = [] := by
  cases ids <;> simp [typeList, brackets, isBracket]

theorem matched_callable {typeParameters : Option (List NodeId)} {f : Fault} {name : NodeId}
    {parameters : List NodeId} {returnType : Option NodeId} {body : NodeId} {steps : List Step}
    (ok : callable typeParameters f name parameters returnType body = .ok steps) :
    Matched (bracketsOf steps) := by
  cases typeParameters with
  | none =>
    cases ok
    simpa [brackets, isBracket] using Matched.round
  | some ids => cases ok

end Script

theorem brackets_binaryOp (operator : BinaryOp) : brackets operator.spelling.toList = [] := by
  cases operator <;> decide

theorem brackets_prefixOp (operator : PrefixOp) : brackets operator.spelling.toList = [] := by
  cases operator <;> decide

theorem brackets_postfixOp (operator : PostfixOp) : brackets operator.spelling.toList = [] := by
  cases operator <;> decide

theorem brackets_keyword (keyword : TypeKeyword) : brackets (typeKeyword keyword).toList = [] := by
  cases keyword <;> decide

theorem brackets_heritage (heritage : Heritage) :
    brackets (heritageKeyword heritage).toList = [] := by
  cases heritage <;> decide

/-- A script opens and closes its own brackets. -/
theorem matched_script {className : Option NodeId} {k : NodeKind} {steps : List Step}
    (ok : script className k = .ok steps)
    (leaf : ∀ token, k.leafToken? = some token → brackets token.toList = []) :
    Matched (bracketsOf steps) := by
  cases k with
  | functionDeclaration name typeParameters parameters returnType body =>
    exact Script.matched_callable ok
  | methodDeclaration name typeParameters parameters returnType body =>
    exact Script.matched_callable ok
  | heritageClause heritage types =>
    rw [script] at ok
    split at ok
    · cases ok
    · cases ok
      simpa [brackets_heritage] using Matched.nil
  | constructor parameters body =>
    cases className with
    | none => cases ok
    | some name =>
      cases ok
      simpa [brackets, isBracket] using Matched.round
  | parameter name type value rest =>
    cases rest with
    | true => cases ok
    | false =>
      cases value with
      | none =>
        cases ok
        simpa using Matched.nil
      | some value =>
        cases ok
        simpa [brackets, isBracket] using Matched.square
  | switchStatement expression clauses =>
    cases ok
    simpa [brackets, isBracket] using Matched.round.append Matched.curly
  | delete expression => cases ok
  | void expression => cases ok
  | typeOf expression => cases ok
  | unsupported construct => cases ok
  | identifier text =>
    cases ok
    simpa [leaf text rfl] using Matched.nil
  | numericLiteral text =>
    cases ok
    simpa [leaf text rfl] using Matched.nil
  | regularExpressionLiteral text =>
    cases ok
    simpa [leaf text rfl] using Matched.nil
  | stringLiteral value =>
    cases ok
    simpa [leaf (stringLiteral value) rfl] using Matched.nil
  | binary left operator right =>
    cases ok
    simpa [brackets_binaryOp] using Matched.nil
  | prefixUnary operator operand =>
    cases ok
    simpa [brackets_prefixOp] using Matched.nil
  | postfixUnary operator operand =>
    cases ok
    simpa [brackets_postfixOp] using Matched.nil
  | keywordType keyword =>
    cases ok
    simpa [brackets_keyword] using Matched.nil
  | _ =>
    cases ok
    simp [Script.bracketsOf_introduced, brackets, isBracket, Matched.nil, Matched.round,
      Matched.square, Matched.curly]

/-! ## The brackets of a run -/

section Runs

variable {t : Tree}

/-- What is written for the nodes that a script enters may be put between its tokens. -/
theorem matched_ofScript {inner : NodeId → Course} {steps : List Step}
    (done : (Course.ofScript inner steps).stop = none)
    (within : ∀ c, Step.enter c ∈ steps → Matched (bracketsOf (inner c).steps))
    (front back : List Char) (own : Matched (front ++ (bracketsOf steps ++ back))) :
    Matched (front ++ (bracketsOf (Course.ofScript inner steps).steps ++ back)) := by
  -- Tokens that are done with move to the front, so a node is always entered right behind it.
  induction steps generalizing front with
  | nil => exact own
  | cons step steps ih =>
    have within' : ∀ c, Step.enter c ∈ steps → Matched (bracketsOf (inner c).steps) :=
      fun c mem => within c (List.mem_cons_of_mem step mem)
    cases step with
    | enter c =>
      rw [Course.ofScript] at done ⊢
      obtain ⟨-, after, split⟩ := Course.append_stop done
      rw [split, Script.bracketsOf_append, List.append_assoc]
      exact (ih after within' front own).insert (within c List.mem_cons_self) rfl
    | code text =>
      have rest := ih done within' (front ++ brackets text.toList) (by simpa using own)
      simpa [Course.ofScript, Course.after] using rest
    | lineFeed => exact ih done within' front own

theorem matched_own (lacks : t.Lacks isBracket) {id : NodeId} {n : Node} {steps : List Step}
    (found : t.node? id = some n) (ok : script (t.enclosingClassName id) n.kind = .ok steps) :
    Matched (bracketsOf steps) := by
  apply matched_script ok
  intro token leaf
  have here : t.leafToken? id = some token := by
    rw [Tree.leafToken?, Tree.kind?, found]
    exact leaf
  exact lacks.leafToken (by decide) here

theorem matched_course (lacks : t.Lacks isBracket) {depth : Nat} {id : NodeId}
    (done : (course t depth id).stop = none) : Matched (bracketsOf (course t depth id).steps) := by
  induction depth generalizing id with
  | zero => cases done
  | succ depth ih =>
    cases found : t.node? id with
    | none =>
      simp only [course, found]
      exact .nil
    | some n =>
      obtain ⟨steps, ok, followed, whole⟩ := course_steps found done
      have within : ∀ c, Step.enter c ∈ steps → Matched (bracketsOf (course t depth c).steps) :=
        fun c mem => ih (Course.ofScript_enter followed mem).1
      have own := matched_own lacks found ok
      rw [whole, Script.bracketsOf_enter]
      simpa using matched_ofScript followed within [] [] (by simpa using own)

theorem stop_of_visited {depth : Nat} {id : NodeId} {d : Draft}
    (done : (wholeCourse t).stop = none) (visited : Visited t depth id d) :
    (course t depth id).stop = none := by
  induction visited with
  | root => exact done
  | @child depth id child n front back d d' d'' visited found scripted commented followed ih =>
    obtain ⟨steps, ok, through, -⟩ := course_steps found ih
    rw [scripted] at ok
    cases ok
    exact (Course.ofScript_enter through (by simp)).1

theorem brackets_writes (lacks : t.Lacks isBracket) (c : Comment.Cursor) (steps : List Step) :
    brackets (render (writes t c steps)).toList = bracketsOf steps :=
  filter_writes lacks rfl rfl c steps

/-- A tree whose own texts have no brackets is written with matched brackets. So is each node
whenever it is visited, its children included, and the tokens of its own match among themselves. -/
theorem matched_emit (lacks : t.Lacks isBracket) {pieces : List Piece} (ok : emit t = .ok pieces) :
    Matched (brackets (render pieces).toList) ∧
      ∀ {depth : Nat} {id : NodeId} {d : Draft}, Visited t depth id d →
        (∃ d' added, outcome (visit t depth id) d = (.ok (), d') ∧
          d'.pieces.toList = d.pieces.toList ++ added ∧
          Matched (brackets (render added).toList)) ∧
        ∀ {n : Node} {steps : List Step}, t.node? id = some n →
          script (t.enclosingClassName id) n.kind = .ok steps → Matched (bracketsOf steps) := by
  obtain ⟨done, rfl⟩ := emit_eq_writes ok
  constructor
  · rw [brackets_writes lacks]
    exact matched_course lacks done
  · intro depth id d visited
    have through := stop_of_visited done visited
    refine ⟨⟨((course t depth id).marks t).foldl (Draft.put t.text) d,
      writes t d.cursor (course t depth id).steps, ?_, ?_, ?_⟩, matched_own lacks⟩
    · rw [Course.taken_visit t depth id d, Course.answer, through]
    · exact Draft.pieces_foldl_put t.text _ d
    · rw [brackets_writes lacks]
      exact matched_course lacks through

end Runs

/-- A class with a call in it, visited as the first statement of its file. -/
theorem matched_callingClass :
    callingClass.Lacks isBracket ∧
      Visited callingClass 16 13 (Draft.behind callingClass [.enter 15]) ∧
      ∃ pieces, emit callingClass = .ok pieces ∧
        brackets (render pieces).toList = ['{', '(', ')', '{', '(', '(', ')', ')', '}', '}'] ∧
        Matched (brackets (render pieces).toList) ∧
        ∃ d' added, outcome (visit callingClass 16 13) (Draft.behind callingClass [.enter 15]) =
            (.ok (), d') ∧
          d'.pieces.toList = (Draft.behind callingClass [.enter 15]).pieces.toList ++ added ∧
          Matched (brackets (render added).toList) := by
  have lacks : callingClass.Lacks isBracket := by decide
  have file : callingClass.node? 15 = some ⟨.sourceFile [13] 14, ⟨5, 5, 0, 1, 0⟩, none⟩ := rfl
  have scripted : script (callingClass.enclosingClassName 15) (.sourceFile [13] 14) =
    .ok ([] ++ .enter 13 :: [.enter 14]) := rfl
  have visited : Visited callingClass 16 13 (Draft.behind callingClass [.enter 15]) :=
    .child .root file scripted (outcome_leadingComments file []) rfl
  obtain ⟨pieces, ok, rendered⟩ := emit_callingClass
  obtain ⟨whole, each⟩ := matched_emit lacks ok
  refine ⟨lacks, visited, pieces, ok, ?_, whole, (each visited).1⟩
  rw [rendered]
  decide

end Dartify.Dart
