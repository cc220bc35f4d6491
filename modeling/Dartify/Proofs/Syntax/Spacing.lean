import Dartify.Proofs.Syntax.Gaps
import Dartify.Proofs.Syntax.Source
import Dartify.Proofs.Text.Bytes

/-! Where the tokens of a text stand. Main statements: between the end of the token before it and
the beginning of a token lies a gap of the text, and so between the last token and the end. -/
namespace Dartify.Syntax

/-- Between two offsets of a text lies a gap, behind which a rest stands. -/
structure GapAt (text : List Char) (start stop : Nat) (pieces : List Piece) (behind : List Char) :
    Prop where
  spans : ∃ front, text = front ++ (pieces.flatMap Piece.text ++ behind) ∧
    Text.bytes front = start ∧ Text.bytes (front ++ pieces.flatMap Piece.text) = stop
  gap : Gap (pieces.flatMap Piece.text ++ behind) pieces behind
  settled : Settled behind

theorem exists_gapAt (front : List Char) {cs rest : List Char} (markup : Bool)
    (trivia : rest = cs.drop (Lexical.trivia markup cs)) :
    ∃ pieces, cs = pieces.flatMap Piece.text ++ rest ∧
      GapAt (front ++ cs) (Text.bytes front)
        (Text.bytes (front ++ pieces.flatMap Piece.text)) pieces rest := by
  obtain ⟨pieces, gap, settled⟩ := Lexical.exists_gap_trivia markup cs
  rw [← trivia] at gap settled
  have split := gap.split
  subst split
  exact ⟨pieces, rfl, ⟨front, rfl, rfl, rfl⟩, gap, settled⟩

namespace Token

variable {p q : Place} {ts : List Token} {t : Token} {rest : List Char}

theorem Linked.last (linked : Linked p ts q) : (ts.getLast?.map Token.stop).getD p = q := by
  induction ts generalizing p with
  | nil => exact linked
  | cons t ts ih =>
    have last := ih linked.2.2
    cases ts with
    | nil => exact last
    | cons u us => simpa [List.getLast?_cons] using last

theorem Linked.after (linked : Linked p ts q) : q = p.after (spell ts) := by
  induction ts generalizing p with
  | nil => exact linked.symm
  | cons t ts ih =>
    obtain ⟨behind, -, more⟩ := linked
    rw [ih more, stop, behind, ← Place.after_append]
    rfl

/-- What stands in front of a token, and that the trivia there is its own. -/
theorem exists_front (linked : Linked p ts q) (spaced : Spaced ts rest) (mem : t ∈ ts) :
    ∃ front behind, spell ts ++ rest = front ++ (t.spelling ++ behind) ∧ t.behind = p.after front ∧
      t.OwnsTrivia behind := by
  induction ts generalizing p with
  | nil => cases mem
  | cons u ts ih =>
    obtain ⟨behind, -, more⟩ := linked
    obtain ⟨own, others⟩ := spaced
    rcases List.mem_cons.mp mem with rfl | mem
    · exact ⟨[], spell ts ++ rest, by simp [spell], behind, own⟩
    · obtain ⟨front, later, split, place, own⟩ := ih more others mem
      refine ⟨u.spelling ++ front, later, ?_, ?_, own⟩
      · rw [List.append_assoc, ← split, spell, List.flatMap_cons, List.append_assoc]
        rfl
      · rw [place, stop, behind, Place.after_append]

end Token

section

variable {source rest : List Char} {c : Concrete} {here : Place}

/-- In front of a token that is no stretch of a template lies a gap. -/
theorem Covers.exists_gapAt (covers : Covers source [c] here rest) {t : Token}
    (mem : t ∈ c.tokens) (whole : t.kind ≠ .template) :
    ∃ pieces behind, GapAt source t.behind.offset t.start.offset pieces behind := by
  obtain ⟨front, behind, split, place, own⟩ :=
    Token.exists_front covers.linked_tokens covers.spaced_tokens mem
  obtain ⟨markup, trivia⟩ := own.resolve_left whole
  -- The trivia of the token is the gap that the lexer takes in front of what is left there.
  have cut : t.spelling ++ behind = t.trivia ++ (t.text.toList ++ behind) := List.append_assoc ..
  have later : t.text.toList ++ behind =
      (t.spelling ++ behind).drop (Lexical.trivia markup (t.spelling ++ behind)) := by
    have parts := List.take_append_drop (Lexical.trivia markup (t.spelling ++ behind))
      (t.spelling ++ behind)
    rw [← trivia] at parts
    exact (List.append_cancel_left (parts.trans cut)).symm
  obtain ⟨pieces, parts, gap⟩ := Syntax.exists_gapAt front markup later
  have own : pieces.flatMap Piece.text = t.trivia := List.append_cancel_right (parts.symm.trans cut)
  have start : Text.bytes front = t.behind.offset := by
    rw [place, Place.offset_after]
    exact (Nat.zero_add _).symm
  have stop : Text.bytes (front ++ pieces.flatMap Piece.text) = t.start.offset := by
    rw [own, Token.start, Place.offset_after, Text.bytes_append, start]
  rw [← split, covers.spelled_tokens, start, stop] at gap
  exact ⟨pieces, _, gap⟩

/-- Between the last token and the end of a text lies a gap. -/
theorem Covers.exists_gapAt_end (covers : Covers source [c] here rest) {markup : Bool}
    (blank : rest.length ≤ Lexical.trivia markup rest) :
    ∃ pieces, GapAt source here.offset (here.after rest).offset pieces [] := by
  obtain ⟨pieces, parts, gap⟩ := Syntax.exists_gapAt (Token.spell c.tokens) markup
    (List.drop_eq_nil_of_le blank).symm
  rw [List.append_nil] at parts
  have start : Text.bytes (Token.spell c.tokens) = here.offset := by
    rw [covers.linked_tokens.after, Place.offset_after]
    exact (Nat.zero_add _).symm
  have stop : Text.bytes (Token.spell c.tokens ++ pieces.flatMap Piece.text) =
      (here.after rest).offset := by
    rw [← parts, Text.bytes_append, start, Place.offset_after]
  rw [covers.spelled_tokens, start, stop] at gap
  exact ⟨pieces, gap⟩

end

end Dartify.Syntax
