import Dartify.Syntax.Grouping
import Dartify.Syntax.Lexeme
import Dartify.Syntax.Semicolon

/-! The state of a reader. Open constructs are frames, and what a reader has taken from the text
lies in them as finished subtrees. Every move keeps three facts, which the state carries with it:
the tokens in the frames and the rest spell out the source, all trivia in front of a token is its
own, and every finished subtree is well formed. A reader built from these moves cannot lose, repeat
or reorder a token. -/
namespace Dartify.Syntax

/-- How far the construct around reaches. -/
structure Mode where
  /-- An omitted semicolon may end the construct here. -/
  mayEnd : Bool
  /-- A colon ends the expression. -/
  colonEnds : Bool
  /-- Type arguments at the end belong to a heritage clause. -/
  heritage : Bool
  /-- The word `in` ends the expression. -/
  inEnds : Bool
  /-- The type belongs to a cast, so that an operator may follow it. -/
  inCast : Bool
  /-- The type is what a function returns, so that a body may follow it. -/
  signature : Bool
  /-- Angle brackets compare wherever they can. -/
  compares : Bool
  /-- A word that is reserved, but begins nothing here, may be a name. -/
  frees : Bool
deriving DecidableEq, Inhabited

namespace Mode

/-- Inside brackets. -/
def closed : Mode := ⟨false, false, false, false, false, false, false, false⟩

/-- At the level of a statement. -/
def statement : Mode := { closed with mayEnd := true }

/-- In front of a colon. -/
def beforeColon : Mode := { closed with colonEnds := true }

/-- In a heritage clause. -/
def supertype : Mode := { closed with heritage := true }

/-- Behind the equals sign of a parameter. -/
def inParameter : Mode := { closed with compares := true }

/-- In front of `in`, at the head of a loop. -/
def beforeIn : Mode := { closed with inEnds := true }

end Mode

/-- The frames, flattened, spell out the source up to `here`. -/
structure Covers (source : List Char) (items : List Concrete) (here : Place)
    (rest : List Char) : Prop where
  linked : Token.Linked .origin (Concrete.tokensOf items) here
  spelled : Token.spell (Concrete.tokensOf items) ++ rest = source
  spaced : Token.Spaced (Concrete.tokensOf items) rest
  formed : Concrete.AllWellFormed items

structure State (source : List Char) where
  /-- The subtrees of the innermost open construct, the latest first. -/
  top : List Concrete
  /-- The subtrees of the constructs around it, inner ones first. -/
  below : List (List Concrete)
  /-- The end of the last token. -/
  here : Place
  rest : List Char
  next : Lexeme rest
  reads : ∃ markup, next = Lexeme.read markup rest
  mode : Mode
  covers : Covers source (top ++ below.flatten).reverse here rest

namespace State

variable {source : List Char}

def initial (source : List Char) : State source where
  top := []
  below := []
  here := .origin
  rest := source
  next := Lexeme.read true source
  reads := ⟨true, rfl⟩
  mode := .statement
  covers := ⟨rfl, rfl, trivial, trivial⟩

/-- The token that a lexeme of the rest would be. -/
def tokenOf (s : State source) (l : Lexeme s.rest) : Token := ⟨s.here, l.trivia, l.kind, l.text⟩

theorem covers_shift (s : State source) (l : Lexeme s.rest) (h : l.text ≠ "") :
    Covers source (.leaf (s.tokenOf l) :: (s.top ++ s.below.flatten)).reverse
      (s.tokenOf l).stop l.rest := by
  obtain ⟨linked, spelled, spaced, formed⟩ := s.covers
  have cut : (s.tokenOf l).spelling ++ l.rest = s.rest := l.spelled
  refine ⟨?_, ?_, ?_, ?_⟩
  · simpa [Concrete.tokensOf_append, Concrete.tokensOf, Concrete.tokens] using
      linked.snoc (t := s.tokenOf l) rfl h
  · simp only [List.reverse_cons, Concrete.tokensOf_append, Concrete.tokensOf, Concrete.tokens,
      Token.spell, List.flatMap_append, List.append_nil, List.flatMap_cons, List.flatMap_nil,
      List.append_assoc, cut]
    exact spelled
  · have own : (s.tokenOf l).OwnsTrivia l.rest := by
      rw [Token.OwnsTrivia, cut]
      exact l.spaced
    rw [← cut] at spaced
    simpa [Concrete.tokensOf_append, Concrete.tokensOf, Concrete.tokens] using spaced.snoc own
  · rw [Concrete.allWellFormed_iff] at formed ⊢
    simp only [List.reverse_cons, List.mem_append, List.mem_singleton]
    rintro c (hc | rfl)
    · exact formed c hc
    · exact trivial

/-- Takes a token; there is none at the end of the text. -/
def shift (s : State source) (l : Lexeme s.rest) : Option (State source) :=
  if h : l.text = "" then none
  else some {
    top := .leaf (s.tokenOf l) :: s.top
    below := s.below
    here := (s.tokenOf l).stop
    rest := l.rest
    next := Lexeme.read (l.kind.admitsMarkup l.text) l.rest
    reads := ⟨_, rfl⟩
    mode := s.mode
    covers := s.covers_shift l h }

/-- Opens a construct. -/
def enter (s : State source) : State source :=
  { s with top := [], below := s.top :: s.below, covers := by simpa using s.covers }

/-- Closes the innermost construct without a node of its own. -/
def leave (s : State source) : Option (State source) :=
  match h : s.below with
  | [] => none
  | f :: fs => some { s with
      top := s.top ++ f
      below := fs
      covers := by simpa [h] using s.covers }

theorem covers_wrap (s : State source) (k : Construct)
    (h : Concrete.admits k s.top.reverse = true) :
    Covers source (([.node k s.top.reverse] : List Concrete) ++ s.below.flatten).reverse
      s.here s.rest := by
  obtain ⟨linked, spelled, spaced, formed⟩ := s.covers
  have same : Concrete.tokensOf
      (([.node k s.top.reverse] : List Concrete) ++ s.below.flatten).reverse =
      Concrete.tokensOf (s.top ++ s.below.flatten).reverse := by
    simp [Concrete.tokensOf_append, Concrete.tokensOf, Concrete.tokens]
  refine ⟨same ▸ linked, same ▸ spelled, same ▸ spaced, ?_⟩
  rw [Concrete.allWellFormed_iff] at formed ⊢
  intro c hc
  simp only [List.reverse_append, List.reverse_cons, List.reverse_nil, List.nil_append,
    List.mem_append, List.mem_singleton, List.mem_reverse] at hc
  rcases hc with hc | rfl
  · exact formed c (by simp [hc])
  · refine ⟨h, Concrete.allWellFormed_iff.2 fun c hc => formed c ?_⟩
    simp only [List.mem_reverse] at hc
    simp [hc]

/-- Makes the subtrees of the innermost construct one node, if its production admits them. -/
def wrap (s : State source) (k : Construct) : Option (State source) :=
  if h : Concrete.admits k s.top.reverse = true then
    some { s with top := [.node k s.top.reverse], covers := s.covers_wrap k h }
  else none

/-- Reads the next token again, where no comments in the style of a markup language may stand. -/
def forbidMarkup (s : State source) : State source :=
  { s with next := Lexeme.read false s.rest, reads := ⟨false, rfl⟩ }

/-- Reads the next token again, where comments in the style of a markup language may stand. -/
def allowMarkup (s : State source) : State source :=
  if s.next.text = "<" ∨ s.next.text = "--" then
    { s with next := Lexeme.read true s.rest, reads := ⟨true, rfl⟩ }
  else s

end State

end Dartify.Syntax
