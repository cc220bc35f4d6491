/-! Nodes that begin at the same token report the same comments. A cursor remembers the last
comment presented, so that each is written once, by the first node that reports it. -/
namespace Dartify.Comment

/-- The start of the furthest comment claimed so far. -/
structure Cursor where
  furthest : Option Nat
deriving DecidableEq, Inhabited

namespace Cursor

/-- Nothing is claimed yet. -/
def initial : Cursor := ⟨none⟩

/-- Whether a comment that starts here is new. -/
def admits (c : Cursor) (start : Nat) : Bool :=
  match c.furthest with
  | none => true
  | some f => decide (f < start)

/-- Claims a comment by its start; the cursor only moves forward. -/
def claim (c : Cursor) (start : Nat) : Bool × Cursor :=
  if c.admits start then (true, ⟨some start⟩) else (false, c)

/-- The answers to a list of claims, in order. -/
def claims : Cursor → List Nat → List Bool
  | _, [] => []
  | c, n :: ns => (c.claim n).1 :: claims (c.claim n).2 ns

end Cursor

end Dartify.Comment
