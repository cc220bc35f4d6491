import Dartify.Syntax.Concrete
import Dartify.Tree.Sketch

/-! From concrete trees to sketches: what every construct needs. -/
namespace Dartify

/-- Why a text has no tree. -/
inductive SyntaxFault where
  /-- The grammar does not accept it, or shapes it in another way. -/
  | rejected
  /-- A construct that is known by its name and its place is a mere word, where it should have a
  part. -/
  | incomplete (construct : String) (line column : Nat)
deriving DecidableEq, Inhabited

/-- The line that reports a fault in a file. -/
def SyntaxFault.render (file : String) : SyntaxFault → String
  | rejected => file ++ ": syntax error"
  | incomplete construct line column =>
    file ++ ":" ++ toString line ++ ":" ++ toString column ++ ": " ++ construct ++
      " is missing a child"

namespace Abstraction

open Syntax

abbrev Reading := Except SyntaxFault

instance : MonadLift Option Reading := ⟨fun a => a.elim (throw .rejected) pure⟩

/-- Where a concrete tree stands; a tree without tokens stands nowhere, nor does one that begins
inside a template. -/
def site? (c : Concrete) : Option Site := do
  let first ← c.first?
  let last ← c.last?
  if first.kind = .template then none
  else return ⟨first.start.offset, last.stop.offset, first.behind.offset, first.start.line,
    first.start.column⟩

/-- A node that stands where a concrete tree stands. -/
def sketch (c : Concrete) (kind : Sketch.Filling NodeKind) : Reading Sketch := do
  return .filled (← site? c) kind

def leaf (c : Concrete) (kind : NodeKind) : Reading Sketch := do
  return .leaf (← site? c) kind

/-- The part that a construct is about: the first that is a node. -/
def essence (c : Concrete) : Reading Concrete :=
  match c.nodes, site? c, c.construct? with
  | part :: _, _, _ => return part
  | [], some site, some k => throw (.incomplete k.name site.line site.column)
  | _, _, _ => throw .rejected

/-- A construct that is kept by name only. -/
def unsupported (c : Concrete) (name : String) : Reading Sketch := leaf c (.unsupported name)

/-- A construct that has no counterpart. -/
def foreign (c : Concrete) : Reading Sketch := do unsupported c (← c.construct?).name

/-! ## Names -/

def identifier (c : Concrete) : Reading Sketch := leaf c (.identifier c.text)

/-- A name that is bound; a pattern is kept by name. A link of a chain counts as the member or the
element that it takes. -/
def binding (c : Concrete) : Reading Sketch :=
  if c.is .identifier then identifier c
  else if c.is (.named "optional_chain") then
    unsupported c (if c.words.contains "[" then Construct.subscript else .member).name
  else foreign c

/-- The name of a member; one that is a literal or computed is kept by name. -/
def memberName (c : Concrete) : Reading Sketch :=
  if c.is .identifier || c.is .propertyName then identifier c else foreign c

/-! ## Parts -/

/-- What is left of a condition without its brackets. -/
def condition (c : Concrete) : Reading Concrete := do
  if c.is .parenthesized then c.nodes.head? else return c

/-- The nodes among the parts that are no decorators. -/
def undecorated (c : Concrete) : List Concrete := c.nodes.filter fun n => !n.is .decorator

/-- Reads a part that may be missing. -/
def optional (read : Concrete → Reading Sketch) (c : Option Concrete) : Reading (Option Sketch) :=
  c.mapM read

end Abstraction

end Dartify
