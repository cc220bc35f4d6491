import Dartify.Proofs.Comment.Admission
import Dartify.Proofs.Comment.Trivia
import Dartify.Proofs.Dart.Course
import Dartify.Program.Translation

/-! Which comments of a tree are written. A run that goes through enters every node of the tree,
but not in the order of the source: a type is written before the name that it belongs to, and the
type that a function returns before its parameters. Main statement: a comment that some node
reports is written once, unless a comment that starts further on is presented before it, and then
it is lost. -/
namespace Dartify.Dart

open Relation

/-! ## Every node is entered -/

namespace Course

theorem append_stop {first rest : Course} (done : (first.append rest).stop = none) :
    first.stop = none ∧ rest.stop = none ∧
      (first.append rest).steps = first.steps ++ rest.steps := by
  unfold append at done ⊢
  cases stop : first.stop with
  | none =>
    rw [stop] at done
    exact ⟨rfl, done, rfl⟩
  | some s =>
    rw [stop] at done
    simp only [stop] at done
    cases done

/-- A script that is followed to its end goes through every node that it enters. -/
theorem ofScript_enter {inner : NodeId → Course} {steps : List Step} {id : NodeId}
    (done : (ofScript inner steps).stop = none) (mem : Step.enter id ∈ steps) :
    (inner id).stop = none ∧ ∀ step ∈ (inner id).steps, step ∈ (ofScript inner steps).steps := by
  induction steps with
  | nil => cases mem
  | cons step steps ih =>
    cases step with
    | enter other =>
      rw [ofScript] at done ⊢
      obtain ⟨before, after, split⟩ := append_stop done
      rw [split]
      rcases List.mem_cons.mp mem with same | mem
      · cases same
        exact ⟨before, fun step h => List.mem_append_left _ h⟩
      · obtain ⟨through, inside⟩ := ih after mem
        exact ⟨through, fun step h => List.mem_append_right _ (inside step h)⟩
    | code text =>
      obtain ⟨through, inside⟩ := ih done ((List.mem_cons.mp mem).resolve_left nofun)
      exact ⟨through, fun step h => List.mem_cons_of_mem _ (inside step h)⟩
    | lineFeed =>
      obtain ⟨through, inside⟩ := ih done ((List.mem_cons.mp mem).resolve_left nofun)
      exact ⟨through, fun step h => List.mem_cons_of_mem _ (inside step h)⟩

end Course

theorem course_steps {tree : Tree} {depth : Nat} {id : NodeId} {n : Node}
    (found : tree.node? id = some n) (done : (course tree (depth + 1) id).stop = none) :
    ∃ steps, script (tree.enclosingClassName id) n.kind = .ok steps ∧
      (Course.ofScript (course tree depth) steps).stop = none ∧
      (course tree (depth + 1) id).steps =
        .enter id :: (Course.ofScript (course tree depth) steps).steps := by
  simp only [course, found] at done ⊢
  cases answer : script (tree.enclosingClassName id) n.kind with
  | ok steps =>
    rw [answer] at done
    exact ⟨steps, rfl, done, rfl⟩
  | error f =>
    rw [answer] at done
    cases done

/-- A run that goes through enters every node below the one that it visits. -/
theorem enter_mem_course {tree : Tree} {depth : Nat} {id below : NodeId} {n : Node}
    (done : (course tree depth id).stop = none) (way : tree.Below id below)
    (found : tree.node? below = some n) : Step.enter below ∈ (course tree depth id).steps := by
  induction depth generalizing id with
  | zero => cases done
  | succ depth ih =>
    -- The way is followed from above, as the run goes.
    rcases ReflTransGen.cases_head way with rfl | ⟨child, ⟨k, kind, mem⟩, way⟩
    · obtain ⟨steps, -, -, whole⟩ := course_steps found done
      rw [whole]
      exact List.mem_cons_self
    · obtain ⟨parent, here, rfl⟩ := Option.map_eq_some_iff.mp kind
      obtain ⟨steps, ok, followed, whole⟩ := course_steps here done
      obtain ⟨through, inside⟩ := Course.ofScript_enter followed (enter_mem_script ok mem)
      rw [whole]
      exact List.mem_cons_of_mem _ (inside _ (ih through way))

/-! ## Comments presented and written -/

/-- The comments that a run presents to its cursor, in order. -/
def presented (tree : Tree) : List Comment.Range :=
  ((wholeCourse tree).marks tree).filterMap Mark.comment?

/-- The comments that a run writes, in order. -/
def written (tree : Tree) : List Comment.Range := (marks tree).filterMap Mark.comment?

theorem comments_admitted (c : Comment.Cursor) (ms : List Mark) :
    (Mark.admitted c ms).filterMap Mark.comment? = c.kept (ms.filterMap Mark.comment?) := by
  induction ms generalizing c with
  | nil => rfl
  | cons m ms ih =>
    cases m with
    | comment r =>
      by_cases admits : c.admits r.start = true
      · simp [Mark.admitted, Comment.Cursor.kept, admits, ih]
      · simp [Mark.admitted, Comment.Cursor.kept, admits, ih]
    | code text => simp [Mark.admitted, List.filterMap_cons, ih]
    | lineFeed => simp [Mark.admitted, List.filterMap_cons, ih]

theorem written_eq (tree : Tree) :
    written tree = Comment.Cursor.kept .initial (presented tree) :=
  comments_admitted ..

theorem comment_mem_marks_iff {tree : Tree} {step : Step} {r : Comment.Range} :
    Mark.comment r ∈ step.marks tree ↔ ∃ id, step = .enter id ∧ r ∈ tree.commentsOf id := by
  cases step <;> simp [Step.marks]

/-- The comments that some steps of a run present. -/
def presentedBy (tree : Tree) (steps : List Step) : List Comment.Range :=
  (steps.flatMap (Step.marks tree)).filterMap Mark.comment?

theorem mem_presentedBy_iff {tree : Tree} {steps : List Step} {r : Comment.Range} :
    r ∈ presentedBy tree steps ↔ ∃ id, Step.enter id ∈ steps ∧ r ∈ tree.commentsOf id := by
  constructor
  · intro mem
    obtain ⟨m, marked, comment⟩ := List.mem_filterMap.mp mem
    obtain ⟨step, taken, marked⟩ := List.mem_flatMap.mp marked
    have same : m = .comment r := by
      cases m with
      | comment r' => simpa using comment
      | code text => cases comment
      | lineFeed => cases comment
    subst same
    obtain ⟨id, rfl, reported⟩ := comment_mem_marks_iff.mp marked
    exact ⟨id, taken, reported⟩
  · rintro ⟨id, entered, reported⟩
    have marked : Mark.comment r ∈ (Step.enter id).marks tree :=
      comment_mem_marks_iff.mpr ⟨id, rfl, reported⟩
    exact List.mem_filterMap.mpr ⟨_, List.mem_flatMap.mpr ⟨_, entered, marked⟩, rfl⟩

theorem mem_presented_iff {tree : Tree} {r : Comment.Range} :
    r ∈ presented tree ↔
      ∃ id, Step.enter id ∈ (wholeCourse tree).steps ∧ r ∈ tree.commentsOf id :=
  mem_presentedBy_iff

theorem presented_standsIn {tree : Tree} {r : Comment.Range} (mem : r ∈ presented tree) :
    r.StandsIn tree.text := by
  obtain ⟨id, -, reported⟩ := mem_presented_iff.mp mem
  unfold Tree.commentsOf at reported
  split at reported
  · exact Comment.mem_leading reported
  · cases reported

theorem comment_mem_marks {tree : Tree} {r : Comment.Range} (mem : Mark.comment r ∈ marks tree) :
    r.StandsIn tree.text := by
  have kept : r ∈ written tree := List.mem_filterMap.mpr ⟨_, mem, rfl⟩
  rw [written_eq] at kept
  exact presented_standsIn (Comment.Cursor.mem_of_mem_kept kept)

theorem reports_mem_presented {tree : Tree} {r : Comment.Range}
    (done : (wholeCourse tree).stop = none) (reports : tree.Reports r) : r ∈ presented tree := by
  obtain ⟨id, way, reported⟩ := reports
  obtain ⟨n, found⟩ : ∃ n, tree.node? id = some n := by
    unfold Tree.commentsOf at reported
    split at reported
    · rename_i n found
      exact ⟨n, found⟩
    · cases reported
  exact mem_presented_iff.mpr ⟨id, enter_mem_course done way found, reported⟩

theorem count_written {tree : Tree} {r : Comment.Range} (mem : r ∈ presented tree) :
    (written tree).count r = if Comment.Overtaken (presented tree) r then 0 else 1 := by
  rw [written_eq]
  apply Comment.Cursor.count_kept _ mem rfl
  intro x other same
  exact (presented_standsIn other).eq_of_start (presented_standsIn mem) same

/-- A text that is translated is written as the marks of its tree, and each comment that a node of
the tree reports is written once, unless a comment that starts further on is presented before it;
then it is not written at all. -/
theorem translateText_comments {fileName text out : String}
    (translated : translateText fileName text = .ok out) :
    ∃ tree, Tree.ofText fileName text.toList = .ok tree ∧
      out = render ((marks tree).map (Mark.piece tree.text)) ∧
      ∀ r, tree.Reports r →
        (written tree).count r = if Comment.Overtaken (presented tree) r then 0 else 1 := by
  unfold translateText at translated
  cases read : Tree.ofText fileName text.toList with
  | error cause =>
    rw [read] at translated
    cases translated
  | ok tree =>
    simp only [read] at translated
    cases emitted : emit tree with
    | error stop =>
      rw [emitted] at translated
      cases translated
    | ok pieces =>
      rw [emitted] at translated
      obtain ⟨done, rfl⟩ := (emit_eq_ok_iff tree pieces).mp emitted
      have shown : render ((marks tree).map (Mark.piece tree.text)) = out :=
        Except.ok.inj translated
      refine ⟨tree, rfl, shown.symm, ?_⟩
      intro r reports
      exact count_written (reports_mem_presented done reports)

/-- A function whose parameter and whose type have a comment each. -/
def annotated : String := "function f(\n// x\nx):\n// y\nT\x7b\x7d"

/-- The type and its comment are written first, and the comment of the parameter is lost. -/
theorem translateText_annotated :
    ∃ tree r, Tree.ofText "a.ts" annotated.toList = .ok tree ∧
      translateText "a.ts" annotated = .ok " // y\n T f ( x ) \x7b \x7d" ∧
      tree.Reports r ∧ (written tree).count r = 0 := by
  have lost : (Tree.ofText "a.ts" annotated.toList).toOption.any (fun tree =>
      (∃ entry ∈ tree.preorder, ⟨12, 16, true⟩ ∈ tree.commentsOf entry.2) ∧
        (written tree).count ⟨12, 16, true⟩ = 0) = true := by
    decide +kernel
  have out : (translateText "a.ts" annotated).toOption = some " // y\n T f ( x ) \x7b \x7d" := by
    decide +kernel
  obtain ⟨tree, read, facts⟩ := exists_ok_of_any lost
  obtain ⟨listed, none⟩ := of_decide_eq_true facts
  exact ⟨tree, _, read, ok_of_toOption out, Tree.reports_of_mem_preorder listed, none⟩

theorem translateText_call :
    translateText "a.ts" "// c\nf();" = .ok " // c\n f ( ) ;" ∧
      ∃ tree, Tree.ofText "a.ts" "// c\nf();".toList = .ok tree ∧
        " // c\n f ( ) ;" = render ((marks tree).map (Mark.piece tree.text)) ∧
        ∀ r, tree.Reports r →
          (written tree).count r = if Comment.Overtaken (presented tree) r then 0 else 1 := by
  have out : (translateText "a.ts" "// c\nf();").toOption = some " // c\n f ( ) ;" := by
    decide +kernel
  have translated := ok_of_toOption out
  exact ⟨translated, translateText_comments translated⟩

end Dartify.Dart
