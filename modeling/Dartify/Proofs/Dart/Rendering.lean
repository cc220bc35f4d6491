import Dartify.Dart.Piece

/-! The text of some pieces is that of each, one behind the other. -/
namespace Dartify.Dart

theorem render_cons (piece : Piece) (pieces : List Piece) :
    render (piece :: pieces) = piece.render ++ render pieces := by
  simp [render, String.join_cons]

theorem render_append (first rest : List Piece) :
    render (first ++ rest) = render first ++ render rest := by
  simp [render, String.join_append]

def Piece.code? : Piece → Option String
  | code text => some text
  | _ => none

def tokens (pieces : List Piece) : List String := pieces.filterMap Piece.code?

@[simp] theorem tokens_nil : tokens [] = [] := rfl

@[simp] theorem tokens_code (text : String) (pieces : List Piece) :
    tokens (.code text :: pieces) = text :: tokens pieces := rfl

@[simp] theorem tokens_comment (text : String) (endsLine : Bool) (pieces : List Piece) :
    tokens (.comment text endsLine :: pieces) = tokens pieces := rfl

@[simp] theorem tokens_lineFeed (pieces : List Piece) :
    tokens (.lineFeed :: pieces) = tokens pieces := rfl

/-- Characters that are no blanks and in no comment are those of the tokens. -/
theorem filter_render {p : Char → Bool} (blank : p ' ' = false) (feed : p '\n' = false)
    {pieces : List Piece}
    (comments : ∀ text endsLine, .comment text endsLine ∈ pieces → text.toList.filter p = []) :
    (render pieces).toList.filter p = (tokens pieces).flatMap (·.toList.filter p) := by
  induction pieces with
  | nil => rfl
  | cons piece pieces ih =>
    have rest := ih fun text endsLine mem => comments text endsLine (List.mem_cons_of_mem _ mem)
    rw [render_cons, String.toList_append, List.filter_append, rest]
    cases piece with
    | code text => simp [Piece.render, blank]
    | comment text endsLine =>
      have silent := comments text endsLine List.mem_cons_self
      cases endsLine <;> simp [Piece.render, blank, feed, silent]
    | lineFeed => simp [Piece.render, feed]

end Dartify.Dart
