import Dartify.Proofs.Dart.Course

/-! Where line feeds of their own stand: each directly behind a token. So none stands behind a
comment, and none begins a file. -/
namespace Dartify.Dart

/-! ## Line feeds of a script -/

namespace Script

@[simp] theorem lineFeed_not_mem_each (ids : List NodeId) : Step.lineFeed ∉ each ids := by
  simp [each]

@[simp] theorem lineFeed_not_mem_maybe (id : Option NodeId) : Step.lineFeed ∉ maybe id :=
  lineFeed_not_mem_each _

@[simp] theorem lineFeed_not_mem_separated (ids : List NodeId) :
    Step.lineFeed ∉ separated ids := by
  cases ids <;> simp [separated]

@[simp] theorem lineFeed_not_mem_bracketed (opening closing : String) (ids : List NodeId) :
    Step.lineFeed ∉ bracketed opening closing ids := by
  simp [bracketed]

@[simp] theorem lineFeed_not_mem_typeOrVar (type : Option NodeId) :
    Step.lineFeed ∉ typeOrVar type := by
  cases type <;> simp [typeOrVar]

@[simp] theorem lineFeed_not_mem_introduced (word : String) (id : Option NodeId) :
    Step.lineFeed ∉ introduced word id := by
  cases id <;> simp [introduced]

@[simp] theorem lineFeed_not_mem_typeList (ids : Option (List NodeId)) :
    Step.lineFeed ∉ typeList ids := by
  cases ids <;> simp [typeList]

theorem lineFeed_not_mem_callable {typeParameters : Option (List NodeId)} {f : Fault}
    {name : NodeId} {parameters : List NodeId} {returnType : Option NodeId} {body : NodeId}
    {steps : List Step}
    (ok : callable typeParameters f name parameters returnType body = .ok steps) :
    Step.lineFeed ∉ steps := by
  cases typeParameters with
  | none =>
    cases ok
    simp
  | some ids => cases ok

end Script

/-- Only variable statements write a line feed, and they end with it. -/
theorem lineFeed_script {className : Option NodeId} {k : NodeKind} {steps : List Step}
    (ok : script className k = .ok steps) :
    Step.lineFeed ∉ steps ∨
      ∃ declarations, steps = [.enter declarations, .code ";", .lineFeed] := by
  cases k with
  | variableStatement declarations =>
    cases ok
    exact Or.inr ⟨declarations, rfl⟩
  | functionDeclaration name typeParameters parameters returnType body =>
    exact Or.inl (Script.lineFeed_not_mem_callable ok)
  | methodDeclaration name typeParameters parameters returnType body =>
    exact Or.inl (Script.lineFeed_not_mem_callable ok)
  | heritageClause heritage types =>
    rw [script] at ok
    split at ok
    · cases ok
    · cases ok
      simp
  | constructor parameters body =>
    cases className with
    | none => cases ok
    | some name =>
      cases ok
      simp
  | parameter name type value rest =>
    cases rest with
    | true => cases ok
    | false => cases value <;> cases ok <;> simp
  | delete expression => cases ok
  | void expression => cases ok
  | typeOf expression => cases ok
  | unsupported construct => cases ok
  | _ =>
    cases ok
    simp

/-! ## Line feeds of a run -/

/-- Every line feed stands directly behind code; the flag tells whether code stands in front of
all. -/
def FeedsFollowCode : Bool → List Mark → Prop
  | _, [] => True
  | _, .code _ :: ms => FeedsFollowCode true ms
  | _, .comment _ :: ms => FeedsFollowCode false ms
  | behind, .lineFeed :: ms => behind = true ∧ FeedsFollowCode false ms

namespace FeedsFollowCode

variable {behind : Bool} {ms ms' : List Mark}

theorem weaken (h : FeedsFollowCode false ms) : FeedsFollowCode behind ms := by
  cases ms with
  | nil => trivial
  | cons m ms =>
    cases m with
    | code text => exact h
    | comment r => exact h
    | lineFeed => cases h.1

theorem append (h : FeedsFollowCode behind ms) (h' : FeedsFollowCode false ms') :
    FeedsFollowCode behind (ms ++ ms') := by
  induction ms generalizing behind with
  | nil => exact h'.weaken
  | cons m ms ih =>
    cases m with
    | code text => exact ih h
    | comment r => exact ih h
    | lineFeed => exact ⟨h.1, ih h.2⟩

theorem comments (rs : List Comment.Range) : FeedsFollowCode behind (rs.map .comment) := by
  induction rs generalizing behind with
  | nil => trivial
  | cons r rs ih => exact ih

theorem admitted (c : Comment.Cursor) (h : FeedsFollowCode behind ms) :
    FeedsFollowCode behind (Mark.admitted c ms) := by
  induction ms generalizing behind c with
  | nil => trivial
  | cons m ms ih =>
    cases m with
    | comment r =>
      rw [Mark.admitted]
      split
      · exact ih _ h
      · exact (ih c h).weaken
    | code text => exact ih c h
    | lineFeed => exact ⟨h.1, ih c h.2⟩

theorem not_behind_comment {us vs : List Mark} {r : Comment.Range} :
    ¬ FeedsFollowCode behind (us ++ .comment r :: .lineFeed :: vs) := by
  induction us generalizing behind with
  | nil =>
    intro h
    cases h.1
  | cons m us ih =>
    cases m with
    | code text => exact ih
    | comment r => exact ih
    | lineFeed => exact fun h => ih h.2

end FeedsFollowCode

namespace Course

theorem feeds_append {tree : Tree} {first rest : Course} {behind : Bool}
    (h : FeedsFollowCode behind (first.marks tree)) (h' : FeedsFollowCode false (rest.marks tree)) :
    FeedsFollowCode behind ((first.append rest).marks tree) := by
  unfold append
  split
  · rw [marks_after]
    exact h.append h'
  · exact h

theorem feeds_ofScript {tree : Tree} {inner : NodeId → Course}
    (h : ∀ id, FeedsFollowCode false ((inner id).marks tree)) {steps : List Step}
    (none : Step.lineFeed ∉ steps) : FeedsFollowCode false ((ofScript inner steps).marks tree) := by
  induction steps with
  | nil => trivial
  | cons step steps ih =>
    have rest := ih fun mem => none (List.mem_cons_of_mem step mem)
    cases step with
    | enter id => exact feeds_append (h id) rest
    | code text => exact rest.weaken
    | lineFeed => exact absurd List.mem_cons_self none

theorem feeds_course (tree : Tree) (depth : Nat) (id : NodeId) :
    FeedsFollowCode false ((course tree depth id).marks tree) := by
  induction depth generalizing id with
  | zero => trivial
  | succ depth ih =>
    unfold course
    split
    · have comments : FeedsFollowCode false ((tree.commentsOf id).map .comment) := .comments _
      split
      · rename_i steps ok
        rw [marks_after]
        refine FeedsFollowCode.append ?_ ?_
        · simpa [Step.marks] using comments
        · rcases lineFeed_script ok with none | ⟨declarations, rfl⟩
          · exact feeds_ofScript ih none
          · exact feeds_append (ih declarations) ⟨rfl, trivial⟩
      · rw [marks_after]
        refine FeedsFollowCode.append ?_ trivial
        simpa [Step.marks] using comments
    · trivial

end Course

theorem feeds_marks (tree : Tree) : FeedsFollowCode false (marks tree) :=
  (Course.feeds_course tree _ _).admitted _

end Dartify.Dart
