import Dartify.Comment.Scan
import Dartify.Tree.Kind

/-! Trees as arenas. A node is added after its children and refers to them by index; its parent
is the last node added that lists it. -/
namespace Dartify

/-- Where a node stands: the bytes of its own text, the end of the token before it, and the line
and column of its first token. -/
structure Site where
  start : Nat
  stop : Nat
  fullStart : Nat
  line : Nat
  column : Nat
deriving DecidableEq, Inhabited

structure Node where
  kind : NodeKind
  site : Site
  parent : Option NodeId
deriving DecidableEq, Inhabited

/-- The nodes added so far. -/
structure Arena where
  nodes : Array Node
deriving Inhabited

namespace Arena

def empty : Arena := ⟨#[]⟩

def size (a : Arena) : Nat := a.nodes.size

/-- Makes `parent` the parent of a node. -/
def adopt (parent : NodeId) (nodes : Array Node) (child : NodeId) : Array Node :=
  nodes.modify child fun n => { n with parent := some parent }

/-- Adds a node and makes it the parent of its children. -/
def push (a : Arena) (kind : NodeKind) (site : Site) : Arena :=
  ⟨(kind.children.foldl (adopt a.size) a.nodes).push ⟨kind, site, none⟩⟩

end Arena

/-- A source file: its name, its text and its nodes. -/
structure Tree where
  fileName : String
  text : List Char
  arena : Arena
  root : NodeId
deriving Inhabited

/-- A file with a line and column, both counted from zero. -/
structure Location where
  file : String
  line : Nat
  column : Nat
deriving DecidableEq, Inhabited

def Location.render (l : Location) : String :=
  l.file ++ ":" ++ toString l.line ++ ":" ++ toString l.column

namespace Tree

def node? (t : Tree) (id : NodeId) : Option Node := t.arena.nodes[id]?

def kind? (t : Tree) (id : NodeId) : Option NodeKind := (t.node? id).map (·.kind)

def parent? (t : Tree) (id : NodeId) : Option NodeId := (t.node? id).bind (·.parent)

/-- The next `n` nodes upwards. -/
def ancestorsWithin (t : Tree) : Nat → NodeId → List NodeId
  | 0, _ => []
  | n + 1, id =>
    match t.parent? id with
    | some p => p :: ancestorsWithin t n p
    | none => []

/-- Parent, grandparent and so on. Parents are added later than their children, so there are
fewer of them than nodes. -/
def ancestors (t : Tree) (id : NodeId) : List NodeId := t.ancestorsWithin t.arena.size id

def location (t : Tree) (n : Node) : Location := ⟨t.fileName, n.site.line, n.site.column⟩

/-- The comments between the token before a node and its first token. -/
def leadingComments (t : Tree) (n : Node) : List Comment.Range :=
  Comment.leading t.text n.site.fullStart

/-- The name of the innermost class around a node. -/
def enclosingClassName (t : Tree) (id : NodeId) : Option NodeId :=
  (t.ancestors id).findSome? fun a =>
    match t.kind? a with
    | some (.classDeclaration name ..) => some name
    | _ => none

/-- The nodes below a node, itself included, in preorder with their depth, to a given depth. -/
def preorderWithin (t : Tree) : Nat → Nat → NodeId → List (Nat × NodeId)
  | 0, _, _ => []
  | n + 1, depth, id =>
    (depth, id) ::
      match t.kind? id with
      | some k => k.children.flatMap (preorderWithin t n (depth + 1))
      | none => []

/-- The nodes of the tree in preorder, each with its depth. -/
def preorder (t : Tree) : List (Nat × NodeId) := t.preorderWithin t.arena.size 0 t.root

end Tree

end Dartify
