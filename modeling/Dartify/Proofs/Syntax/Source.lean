import Dartify.Grammar.Source

/-! The state in which the reading of a text ends: the tree of a file is all that it holds, and no
token is left. -/
namespace Dartify

namespace Syntax.Lexeme

theorem eq_nil_of_classify {cs : List Char} (none : (classify cs).1 = .endOfText) : cs = [] := by
  cases cs with
  | nil => rfl
  | cons c cs =>
    unfold classify at none
    grind

end Syntax.Lexeme

namespace Grammar

open Syntax

variable {source : List Char}

/-- What a construct was read as lies on top when it is closed, and its last part was read up to the
same token. -/
theorem exists_top_of_node {k : Construct} {p : Parse source Unit} {s s' : State source}
    (read : Parse.node k p s = some ((), s')) :
    ∃ inner, p s.enter = some ((), inner) ∧ s'.next.kind = inner.next.kind ∧
      ∃ parts front, s'.top = .node k parts :: front := by
  obtain ⟨⟨_, closed⟩, inner, read⟩ := Option.bind_eq_some_iff.mp read
  obtain ⟨⟨_, opened⟩, within, wrapped⟩ := Option.bind_eq_some_iff.mp inner
  obtain ⟨_, wrapped, same⟩ := Option.map_eq_some_iff.mp wrapped
  obtain ⟨⟨_, outer⟩, left, same'⟩ := Option.bind_eq_some_iff.mp read
  obtain ⟨_, left, same''⟩ := Option.map_eq_some_iff.mp left
  cases same
  cases same'
  cases same''
  have top : closed.top = [.node k opened.top.reverse] ∧ closed.next.kind = opened.next.kind := by
    simp only [State.wrap] at wrapped
    split at wrapped
    · cases wrapped
      exact ⟨rfl, rfl⟩
    · cases wrapped
  unfold State.leave at left
  split at left
  · cases left
  · rename_i front frames _
    cases left
    have shape : closed.top ++ front = .node k opened.top.reverse :: front := by
      rw [top.1]
      rfl
    exact ⟨opened, within, top.2, _, _, shape⟩

theorem exists_stop_of_repeated {n : Nat} {step : Parse source Bool} {s s' : State source}
    (done : Parse.repeated n step s = some ((), s')) : ∃ last, step last = some (false, s') := by
  induction n generalizing s with
  | zero => cases done
  | succ n ih =>
    obtain ⟨⟨again, t⟩, first, done⟩ := Option.bind_eq_some_iff.mp done
    -- The last step that is made is one that says to stop.
    cases again with
    | true => exact ih done
    | false =>
      cases done
      exact ⟨s, first⟩

theorem kind_of_sourceFile {g : Rules source} {s s' : State source}
    (read : sourceFile g s = some ((), s')) : s'.next.kind = .endOfText := by
  obtain ⟨inner, body, same, -⟩ := exists_top_of_node read
  obtain ⟨⟨_, started⟩, -, statements⟩ := Option.bind_eq_some_iff.mp body
  obtain ⟨last, stop⟩ := exists_stop_of_repeated statements
  have step : (if last.next.kind == .endOfText then pure false else do
      g.statement
      return true : Parse source Bool) last = some (false, inner) := stop
  rw [same]
  split at step
  · rename_i ended
    cases step
    exact eq_of_beq ended
  · obtain ⟨⟨_, behind⟩, -, more⟩ := Option.bind_eq_some_iff.mp step
    cases more

/-- The tree of a text is all that is left open when no token is left. -/
theorem exists_state_of_read? {c : Concrete} (read : read? source = some c) :
    c.construct? = some .sourceFile ∧
      ∃ s : State source, s.top = [c] ∧ s.below = [] ∧ s.next.kind = .endOfText := by
  obtain ⟨⟨_, s⟩, done, read⟩ := Option.bind_eq_some_iff.mp read
  obtain ⟨-, -, -, parts, front, top⟩ := exists_top_of_node done
  simp only at read
  split at read
  · rename_i d alone closed
    obtain rfl := Option.some.inj read
    rw [alone] at top
    refine ⟨?_, s, alone, closed, kind_of_sourceFile done⟩
    rw [(List.cons.inj top).1]
    rfl
  · cases read

/-- The tokens of a tree spell out the text up to a rest, which is nothing but trivia. -/
theorem exists_rest_of_read? {c : Concrete} (read : read? source = some c) :
    ∃ here rest, Covers source [c] here rest ∧
      ∃ markup, rest.length ≤ Lexical.trivia markup rest := by
  obtain ⟨-, s, top, below, last⟩ := exists_state_of_read? read
  have covers := s.covers
  rw [top, below] at covers
  obtain ⟨markup, next⟩ := s.reads
  refine ⟨s.here, s.rest, covers, markup, ?_⟩
  rw [next] at last
  exact List.drop_eq_nil_iff.mp (Lexeme.eq_nil_of_classify last)

end Grammar

namespace Syntax.Covers

variable {source rest : List Char} {c : Concrete} {here : Place}
  (covers : Covers source [c] here rest)

include covers

theorem linked_tokens : Token.Linked .origin c.tokens here := by
  simpa [Concrete.tokensOf] using covers.linked

theorem spelled_tokens : Token.spell c.tokens ++ rest = source := by
  simpa [Concrete.tokensOf] using covers.spelled

theorem spaced_tokens : Token.Spaced c.tokens rest := by
  simpa [Concrete.tokensOf] using covers.spaced

end Syntax.Covers

end Dartify
