import Dartify.Proofs.Dart.Course

/-! Comments and code. A tree without its text has no comments, and its run takes the same course,
since neither the scripts nor the class around a node depend on the text. Main statement: what is
written of a tree, its comments left out, is what is written of the tree without its text. -/
namespace Dartify

/-- The same nodes without a text. -/
def Tree.bare (t : Tree) : Tree := { t with text := [] }

theorem Comment.leading_nil (pos : Nat) : Comment.leading [] pos = [] := by
  cases pos with
  | zero => rfl
  | succ pos => rfl

theorem Tree.commentsOf_bare (t : Tree) (id : NodeId) : t.bare.commentsOf id = [] := by
  unfold commentsOf
  split
  · exact Comment.leading_nil _
  · rfl

namespace Dart

def Piece.isComment : Piece → Bool
  | comment _ _ => true
  | _ => false

/-! ## The course does not depend on the text -/

theorem ancestorsWithin_bare (t : Tree) (n : Nat) (id : NodeId) :
    t.bare.ancestorsWithin n id = t.ancestorsWithin n id := by
  induction n generalizing id with
  | zero => rfl
  | succ n ih =>
    have parent : t.bare.parent? id = t.parent? id := rfl
    rw [Tree.ancestorsWithin, Tree.ancestorsWithin, parent]
    split
    · rw [ih]
    · rfl

theorem enclosingClassName_bare (t : Tree) (id : NodeId) :
    t.bare.enclosingClassName id = t.enclosingClassName id := by
  have ancestors : t.bare.ancestors id = t.ancestors id := ancestorsWithin_bare t _ id
  rw [Tree.enclosingClassName, ancestors]
  rfl

theorem course_bare (t : Tree) (depth : Nat) (id : NodeId) :
    course t.bare depth id = course t depth id := by
  induction depth generalizing id with
  | zero => rfl
  | succ depth ih =>
    have inner : course t.bare depth = course t depth := funext ih
    have nodes : t.bare.node? id = t.node? id := rfl
    unfold course
    rw [inner, nodes, enclosingClassName_bare]
    rfl

theorem wholeCourse_bare (t : Tree) : wholeCourse t.bare = wholeCourse t :=
  course_bare t (depthLimit t) t.root

/-! ## Marks that are no comments -/

namespace Mark

def isCode (m : Mark) : Bool := m.comment?.isNone

theorem isComment_piece (text : List Char) (m : Mark) :
    (m.piece text).isComment = !m.isCode := by
  cases m <;> rfl

theorem piece_of_isCode {m : Mark} (code : m.isCode = true) (text text' : List Char) :
    m.piece text = m.piece text' := by
  cases m with
  | comment r => cases code
  | _ => rfl

/-- The cursor lets pass everything but comments. -/
theorem filter_admitted (c : Comment.Cursor) (ms : List Mark) :
    (admitted c ms).filter isCode = ms.filter isCode := by
  induction ms generalizing c with
  | nil => rfl
  | cons m ms ih =>
    cases m with
    | comment r =>
      have skipped : (comment r).isCode = false := rfl
      rw [admitted, List.filter_cons_of_neg (by simp [skipped])]
      split
      · rw [List.filter_cons_of_neg (by simp [skipped])]
        exact ih _
      · exact ih c
    | code s => exact congrArg (code s :: ·) (ih c)
    | lineFeed => exact congrArg (lineFeed :: ·) (ih c)

theorem admitted_of_code {ms : List Mark} (c : Comment.Cursor)
    (code : ∀ m ∈ ms, m.isCode = true) : admitted c ms = ms := by
  induction ms with
  | nil => rfl
  | cons m ms ih =>
    have rest := ih fun m mem => code m (List.mem_cons_of_mem _ mem)
    cases m with
    | comment r => cases code _ List.mem_cons_self
    | code s => exact congrArg (Mark.code s :: ·) rest
    | lineFeed => exact congrArg (Mark.lineFeed :: ·) rest

end Mark

theorem Step.marks_bare (t : Tree) (step : Step) :
    step.marks t.bare = (step.marks t).filter Mark.isCode := by
  cases step with
  | enter id =>
    rw [Step.marks, Step.marks, Tree.commentsOf_bare, List.filter_map]
    have none : (t.commentsOf id).filter (Mark.isCode ∘ .comment) = [] := by
      rw [List.filter_eq_nil_iff]
      intro range _ code
      cases code
    rw [none]
  | code text => rfl
  | lineFeed => rfl

theorem Course.marks_bare (t : Tree) (c : Course) :
    c.marks t.bare = (c.marks t).filter Mark.isCode := by
  rw [Course.marks, Course.marks, List.filter_flatMap]
  congr 1
  funext step
  exact step.marks_bare t

theorem marks_bare (t : Tree) : marks t.bare = (marks t).filter Mark.isCode := by
  rw [marks, marks, wholeCourse_bare, Course.marks_bare, Mark.filter_admitted]
  apply Mark.admitted_of_code
  exact fun m mem => (List.mem_filter.mp mem).2

/-- A tree without its text fails as the tree does, or is written as what is left of the tree when
the comments are taken out. -/
theorem emit_bare (t : Tree) :
    emit t.bare = (emit t).map (List.filter fun p => !p.isComment) := by
  cases stop : (wholeCourse t).stop with
  | some s =>
    rw [(emit_eq_error_iff t s).mpr stop]
    apply (emit_eq_error_iff t.bare s).mpr
    rw [wholeCourse_bare, stop]
  | none =>
    rw [(emit_eq_ok_iff t _).mpr ⟨stop, rfl⟩]
    apply (emit_eq_ok_iff t.bare _).mpr
    refine ⟨by rw [wholeCourse_bare, stop], ?_⟩
    rw [marks_bare, List.filter_map]
    have kept : (marks t).filter ((fun p => !p.isComment) ∘ Mark.piece t.text) =
        (marks t).filter Mark.isCode := by
      congr 1
      funext m
      simp [Mark.isComment_piece]
    rw [kept]
    apply List.map_congr_left
    intro m mem
    exact Mark.piece_of_isCode (List.mem_filter.mp mem).2 _ _

end Dart

end Dartify
