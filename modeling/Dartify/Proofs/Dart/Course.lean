import Dartify.Proofs.Dart.Script
import Dartify.Proofs.Outcome
import Dartify.Proofs.Tree.Reach

/-! The course of a run: the steps that it takes, all scripts followed, and what ends it early.
The course does not depend on what was written before, nor on the text of the tree; comments come
in when every node that is entered presents its own. Main statement: a run writes the marks of its
course, those comments left out that the cursor does not admit. -/
namespace Dartify.Dart

structure Course where
  steps : List Step
  stop : Option Stop

namespace Course

def empty : Course := ⟨[], none⟩

/-- A course that breaks off at once. -/
def broken (stop : Stop) : Course := ⟨[], some stop⟩

/-- A course behind some steps. -/
def after (steps : List Step) (c : Course) : Course := ⟨steps ++ c.steps, c.stop⟩

/-- One course and then another, unless the first breaks off. -/
def append (first rest : Course) : Course :=
  match first.stop with
  | none => rest.after first.steps
  | some _ => first

/-- The course of a script, given those of the nodes to enter. -/
def ofScript (visit : NodeId → Course) : List Step → Course
  | [] => empty
  | .enter id :: steps => (visit id).append (ofScript visit steps)
  | .code text :: steps => (ofScript visit steps).after [.code text]
  | .lineFeed :: steps => (ofScript visit steps).after [.lineFeed]

def answer (c : Course) : Except Stop Unit :=
  match c.stop with
  | none => .ok ()
  | some stop => .error stop

@[simp] theorem answer_empty : empty.answer = .ok () := rfl

@[simp] theorem answer_broken (stop : Stop) : (broken stop).answer = .error stop := rfl

@[simp] theorem answer_after (steps : List Step) (c : Course) :
    (c.after steps).answer = c.answer := rfl

end Course

/-- The course of visiting a node, which begins with entering it. -/
def course (tree : Tree) : Nat → NodeId → Course
  | 0, _ => .broken .depth
  | depth + 1, id =>
    match tree.node? id with
    | some n =>
      match script (tree.enclosingClassName id) n.kind with
      | .ok steps => (Course.ofScript (course tree depth) steps).after [.enter id]
      | .error f => (Course.broken (.fault ⟨f, tree.location n⟩)).after [.enter id]
    | none => .empty

/-- The course of writing a whole tree. -/
def wholeCourse (tree : Tree) : Course := course tree (depthLimit tree) tree.root

/-! ## Marks -/

/-- A piece that knows which comment it is. -/
inductive Mark where
  | code (text : String)
  | lineFeed
  | comment (r : Comment.Range)
deriving DecidableEq

namespace Mark

def piece (text : List Char) : Mark → Piece
  | code s => .code s
  | lineFeed => .lineFeed
  | comment r => .comment (r.text text) r.endsLine

def comment? : Mark → Option Comment.Range
  | comment r => some r
  | _ => none

@[simp] theorem comment?_comment (r : Comment.Range) : (comment r).comment? = some r := rfl

@[simp] theorem comment?_code (text : String) : (code text).comment? = none := rfl

@[simp] theorem comment?_lineFeed : lineFeed.comment? = none := rfl

/-- What is left of some marks when only the comments that a cursor admits are kept. -/
def admitted : Comment.Cursor → List Mark → List Mark
  | _, [] => []
  | c, comment r :: ms =>
    if c.admits r.start then comment r :: admitted ⟨some r.start⟩ ms else admitted c ms
  | c, m :: ms => m :: admitted c ms

end Mark

def Step.marks (tree : Tree) : Step → List Mark
  | enter id => (tree.commentsOf id).map .comment
  | code text => [.code text]
  | lineFeed => [.lineFeed]

/-- What the steps of a course present, comments that were written before included. -/
def Course.marks (tree : Tree) (c : Course) : List Mark := c.steps.flatMap (Step.marks tree)

/-- What is written of a tree. -/
def marks (tree : Tree) : List Mark := Mark.admitted .initial ((wholeCourse tree).marks tree)

@[simp] theorem Course.marks_after (tree : Tree) (steps : List Step) (c : Course) :
    (c.after steps).marks tree = steps.flatMap (Step.marks tree) ++ c.marks tree :=
  List.flatMap_append

/-! ## What a run writes -/

/-- A draft with one more mark, unless it is a comment that is not admitted. -/
def Draft.put (text : List Char) (d : Draft) : Mark → Draft
  | .comment r =>
    if d.cursor.admits r.start then ⟨d.pieces.push (Mark.piece text (.comment r)), ⟨some r.start⟩⟩
    else d
  | m => { d with pieces := d.pieces.push (m.piece text) }

theorem Draft.pieces_foldl_put (text : List Char) (ms : List Mark) (d : Draft) :
    (ms.foldl (Draft.put text) d).pieces.toList =
      d.pieces.toList ++ (Mark.admitted d.cursor ms).map (Mark.piece text) := by
  induction ms generalizing d with
  | nil => simp [Mark.admitted]
  | cons m ms ih =>
    rw [List.foldl_cons, ih]
    cases m with
    | comment r =>
      by_cases admits : d.cursor.admits r.start = true
      · simp [Draft.put, Mark.admitted, admits]
      · simp [Draft.put, Mark.admitted, admits]
    | code s => simp [Draft.put, Mark.admitted]
    | lineFeed => simp [Draft.put, Mark.admitted]

/-- A run takes a course: from every draft it adds the marks of the course and ends as the course
does. -/
def Course.Taken (tree : Tree) (c : Course) (run : Emit Unit) : Prop :=
  ∀ d, outcome run d = (c.answer, (c.marks tree).foldl (Draft.put tree.text) d)

namespace Course

variable {tree : Tree} {first rest : Course} {run next : Emit Unit}

theorem taken_empty : empty.Taken tree (pure ()) := fun _ => rfl

theorem taken_broken (stop : Stop) : (broken stop).Taken tree (throw stop) := fun _ => rfl

/-- Runs in sequence take their courses in sequence. -/
theorem Taken.append (h : first.Taken tree run) (h' : rest.Taken tree next) :
    (first.append rest).Taken tree (do run; next) := by
  intro d
  cases stop : first.stop with
  | none =>
    have done : outcome run d = (.ok (), (first.marks tree).foldl (Draft.put tree.text) d) := by
      rw [h d, answer, stop]
    rw [outcome_bind_ok done, h']
    simp only [Course.append, stop, marks_after, answer_after, List.foldl_append]
    rfl
  | some s =>
    have failed : outcome run d = (.error s, (first.marks tree).foldl (Draft.put tree.text) d) := by
      rw [h d, answer, stop]
    rw [outcome_bind_error failed]
    simp only [Course.append, stop, answer]

theorem Taken.after {steps : List Step} (h : (⟨steps, none⟩ : Course).Taken tree run)
    (h' : rest.Taken tree next) : (rest.after steps).Taken tree (do run; next) :=
  Taken.append h h'

theorem taken_code (text : String) : (⟨[.code text], none⟩ : Course).Taken tree (Emit.code text) :=
  fun _ => rfl

theorem taken_lineFeed : (⟨[.lineFeed], none⟩ : Course).Taken tree (Emit.piece .lineFeed) :=
  fun _ => rfl

theorem outcome_comment (text : List Char) (r : Comment.Range) (d : Draft) :
    outcome (Emit.comment text r) d = (.ok (), d.put text (.comment r)) := by
  have run : outcome (Emit.comment text r) d =
      outcome (if (d.cursor.claim r.start).1 then Emit.piece (.comment (r.text text) r.endsLine)
        else pure ()) { d with cursor := (d.cursor.claim r.start).2 } := rfl
  rw [run]
  by_cases admits : d.cursor.admits r.start = true
  · simp only [Comment.Cursor.claim, admits, if_true, Draft.put]
    rfl
  · simp only [Comment.Cursor.claim, admits, Draft.put]
    rfl

theorem outcome_comments (text : List Char) (rs : List Comment.Range) (d : Draft) :
    outcome (rs.forM (Emit.comment text)) d =
      (.ok (), (rs.map Mark.comment).foldl (Draft.put text) d) := by
  induction rs generalizing d with
  | nil => rfl
  | cons r rs ih =>
    have step : (r :: rs).forM (Emit.comment text) =
        (do Emit.comment text r; rs.forM (Emit.comment text)) := rfl
    rw [step, outcome_bind_ok (outcome_comment text r d), ih]
    rfl

theorem taken_enter {id : NodeId} {n : Node} (found : tree.node? id = some n) :
    (⟨[.enter id], none⟩ : Course).Taken tree
      ((tree.leadingComments n).forM (Emit.comment tree.text)) := by
  intro d
  rw [outcome_comments]
  simp [answer, Course.marks, Step.marks, Tree.commentsOf, found]

theorem taken_script {visit : NodeId → Emit Unit} {inner : NodeId → Course}
    (h : ∀ id, (inner id).Taken tree (visit id)) (steps : List Step) :
    (ofScript inner steps).Taken tree (Emit.follow visit steps) := by
  induction steps with
  | nil => exact taken_empty
  | cons step steps ih =>
    cases step with
    | enter id => exact (h id).append ih
    | code text => exact Taken.after (taken_code text) ih
    | lineFeed => exact Taken.after taken_lineFeed ih

theorem taken_visit (tree : Tree) (depth : Nat) (id : NodeId) :
    (course tree depth id).Taken tree (visit tree depth id) := by
  induction depth generalizing id with
  | zero => exact taken_broken .depth
  | succ depth ih =>
    unfold course visit
    cases found : tree.node? id with
    | none => exact taken_empty
    | some n =>
      simp only [Emit.node_eq_act]
      cases script (tree.enclosingClassName id) n.kind with
      | ok steps => exact Taken.after (taken_enter found) (taken_script ih steps)
      | error f => exact Taken.after (taken_enter found) (taken_broken _)

end Course

theorem run_eq (tree : Tree) :
    run tree = ((wholeCourse tree).answer,
      ((wholeCourse tree).marks tree).foldl (Draft.put tree.text) .empty) :=
  Course.taken_visit tree (depthLimit tree) tree.root .empty

/-- A tree is written if its course goes through, and then as its marks. -/
theorem emit_eq_ok_iff (tree : Tree) (pieces : List Piece) :
    emit tree = .ok pieces ↔
      (wholeCourse tree).stop = none ∧ pieces = (marks tree).map (Mark.piece tree.text) := by
  have written := Draft.pieces_foldl_put tree.text ((wholeCourse tree).marks tree) .empty
  unfold emit
  rw [run_eq]
  unfold Course.answer
  cases (wholeCourse tree).stop with
  | none =>
    simp only [Except.ok.injEq, true_and, written]
    exact eq_comm
  | some stop => simp

/-- A tree that is not written fails with what ends its course. -/
theorem emit_eq_error_iff (tree : Tree) (stop : Stop) :
    emit tree = .error stop ↔ (wholeCourse tree).stop = some stop := by
  unfold emit
  rw [run_eq]
  unfold Course.answer
  cases (wholeCourse tree).stop with
  | none => simp
  | some s => simp

end Dartify.Dart
