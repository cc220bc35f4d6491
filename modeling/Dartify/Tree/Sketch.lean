import Dartify.Tree.Basic

/-! Trees that hold their subtrees. A node of a sketch refers to its parts by position; storing a
sketch gives every node an index behind those of its parts. -/
namespace Dartify

inductive Sketch where
  | node (site : Site) (kind : NodeKind) (parts : List Sketch)
deriving Inhabited

namespace Sketch

def site : Sketch → Site
  | node s _ _ => s

/-- Collects the parts of a node and numbers them. -/
abbrev Filling := StateM (List Sketch)

namespace Filling

def one (part : Sketch) : Filling NodeId := fun parts => (parts.length, parts ++ [part])

def many (more : List Sketch) : Filling (List NodeId) := fun parts =>
  (List.range' parts.length more.length, parts ++ more)

def optional (part : Option Sketch) : Filling (Option NodeId) := part.mapM one

def optionalMany (more : Option (List Sketch)) : Filling (Option (List NodeId)) := more.mapM many

end Filling

/-- A node with the parts that were collected for its kind. -/
def filled (site : Site) (kind : Filling NodeKind) : Sketch :=
  let (kind, parts) := kind.run []
  node site kind parts

def leaf (site : Site) (kind : NodeKind) : Sketch := node site kind []

mutual

/-- Adds the nodes of a sketch to an arena, parts first, and tells the index of its root. -/
def store : Sketch → Arena → NodeId × Arena
  | node site kind parts, arena =>
    let (ids, arena) := storeAll parts arena
    let ids := ids.toArray
    (arena.size, arena.push (kind.relabel fun i => ids.getD i 0) site)

def storeAll : List Sketch → Arena → List NodeId × Arena
  | [], arena => ([], arena)
  | s :: ss, arena =>
    let (id, arena) := store s arena
    let (ids, arena) := storeAll ss arena
    (id :: ids, arena)

end

/-- The tree of a file. -/
def tree (s : Sketch) (fileName : String) (text : List Char) : Tree :=
  let (root, arena) := s.store Arena.empty
  ⟨fileName, text, arena, root⟩

end Sketch

end Dartify
