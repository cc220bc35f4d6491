/-! Cutting a text at a character, and looking for a run of characters in it. -/
namespace Dartify.Text

/-- The stretches between the occurrences of a character; one more than there are occurrences. -/
def split (mark : Char) : List Char → List (List Char)
  | [] => [[]]
  | c :: cs =>
    if c = mark then [] :: split mark cs
    else
      match split mark cs with
      | [] => [[c]]
      | piece :: pieces => (c :: piece) :: pieces

/-- The stretches with a character between them. -/
def join (mark : Char) : List (List Char) → List Char
  | [] => []
  | [piece] => piece
  | piece :: pieces => piece ++ mark :: join mark pieces

theorem split_ne_nil (mark : Char) (cs : List Char) : split mark cs ≠ [] := by
  cases cs with
  | nil => simp [split]
  | cons c cs =>
    by_cases h : c = mark
    · simp [split, h]
    · simp only [split, h, if_false]
      split <;> simp

theorem split_append (mark : Char) (as bs : List Char) :
    split mark (as ++ mark :: bs) = split mark as ++ split mark bs := by
  induction as with
  | nil => simp [split]
  | cons a as ih =>
    rw [List.cons_append, split, split, ih]
    split
    · rfl
    · obtain ⟨piece, pieces, shape⟩ := List.exists_cons_of_ne_nil (split_ne_nil mark as)
      rw [shape]
      rfl

theorem split_whole {mark : Char} {piece : List Char} (whole : mark ∉ piece) :
    split mark piece = [piece] := by
  induction piece with
  | nil => rfl
  | cons c piece ih =>
    obtain ⟨other, whole⟩ := List.ne_and_not_mem_of_not_mem_cons whole
    rw [split, if_neg other.symm, ih whole]

theorem join_cons (mark : Char) (piece : List Char) {pieces : List (List Char)}
    (h : pieces ≠ []) : join mark (piece :: pieces) = piece ++ mark :: join mark pieces := by
  cases pieces with
  | nil => exact absurd rfl h
  | cons p ps => rfl

theorem join_split (mark : Char) (cs : List Char) : join mark (split mark cs) = cs := by
  induction cs with
  | nil => rfl
  | cons c cs ih =>
    have pieces := split_ne_nil mark cs
    by_cases h : c = mark
    · simp only [split, h, if_true, join_cons mark [] pieces, ih, List.nil_append]
    · cases e : split mark cs with
      | nil => exact absurd e pieces
      | cons p ps =>
        rw [e] at ih
        simp only [split, h, if_false, e]
        cases ps with
        | nil => exact congrArg (c :: ·) ih
        | cons q qs => exact congrArg (c :: ·) ih

/-- Whether a run of characters occurs in a text. -/
def contains (run : List Char) : List Char → Bool
  | [] => run.isEmpty
  | c :: cs => run.isPrefixOf (c :: cs) || contains run cs

end Dartify.Text
