import Dartify.Proofs.Tree.Reach

/-! Arenas that are built node by node, children first. A child has a smaller index than its parent,
so a walk downwards ends, and a parent has a greater index than its child, so a walk upwards ends.
Main statement: the ancestors of a node are all that parent links lead to. -/
namespace Dartify

open Relation

/-- What comes of adding nodes whose children have been added before. Nodes may share children. -/
inductive Arena.Built : Arena → Prop
  | empty : Arena.empty.Built
  | push {a : Arena} (built : a.Built) (kind : NodeKind) (site : Site)
      (known : ∀ c ∈ kind.children, c < a.size) : (a.push kind site).Built

namespace Arena

theorem getElem?_foldl_adopt (parent : NodeId) (children : List NodeId) (nodes : Array Node)
    (i : NodeId) :
    (children.foldl (adopt parent) nodes)[i]? =
      nodes[i]?.map fun n => if i ∈ children then { n with parent := some parent } else n := by
  induction children generalizing nodes with
  | nil => simp
  | cons c children ih =>
    rw [List.foldl_cons, ih, adopt, Array.getElem?_modify]
    by_cases here : c = i
    · subst here
      simp only [if_true, Option.map_map, List.mem_cons, true_or]
      congr 1
      funext n
      by_cases again : c ∈ children <;> simp [again]
    · simp [here, Ne.symm here]

theorem size_foldl_adopt (parent : NodeId) (children : List NodeId) (nodes : Array Node) :
    (children.foldl (adopt parent) nodes).size = nodes.size := by
  induction children generalizing nodes with
  | nil => rfl
  | cons c children ih => rw [List.foldl_cons, ih, adopt, Array.size_modify]

theorem size_push (a : Arena) (kind : NodeKind) (site : Site) :
    (a.push kind site).size = a.size + 1 := by
  rw [size, push, Array.size_push, size_foldl_adopt]
  rfl

/-- The nodes behind a step: the new one, and the old ones with their new parents. -/
theorem getElem?_push (a : Arena) (kind : NodeKind) (site : Site) (i : NodeId) :
    (a.push kind site).nodes[i]? =
      if i = a.size then some ⟨kind, site, none⟩
      else a.nodes[i]?.map fun n =>
        if i ∈ kind.children then { n with parent := some a.size } else n := by
  rw [push, Array.getElem?_push, size_foldl_adopt, getElem?_foldl_adopt]
  rfl

namespace Built

variable {a : Arena} (built : a.Built)

include built

theorem children_lt {i : Nat} {n : Node} (found : a.nodes[i]? = some n) :
    ∀ c ∈ n.kind.children, c < i := by
  induction built generalizing i n with
  | empty => cases found
  | @push a built kind site known ih =>
    rw [getElem?_push] at found
    split at found
    · rename_i new
      cases found
      rw [new]
      exact known
    · obtain ⟨old, before, rfl⟩ := Option.map_eq_some_iff.mp found
      have lower := ih before
      split
      · exact lower
      · exact lower

theorem parent_between {i p : Nat} {n : Node} (found : a.nodes[i]? = some n)
    (parent : n.parent = some p) : i < p ∧ p < a.size := by
  induction built generalizing i n with
  | empty => cases found
  | @push a built kind site known ih =>
    rw [getElem?_push] at found
    rw [size_push]
    split at found
    · cases found
      cases parent
    · obtain ⟨old, before, rfl⟩ := Option.map_eq_some_iff.mp found
      split at parent
      · rename_i child
        have new : a.size = p := Option.some.inj parent
        have below : i < a.size := known i child
        omega
      · have bounds := ih before parent
        omega

end Built

end Arena

/-- A tree whose arena is built node by node, its root among them. -/
structure Tree.Built (t : Tree) : Prop where
  arena : t.arena.Built
  root : t.root < t.arena.size

namespace Tree

/-- A node lies above another: parent links lead to it. -/
def Above (t : Tree) : NodeId → NodeId → Prop := TransGen fun i p => t.parent? i = some p

variable {t : Tree}

theorem exists_node {id : NodeId} (bound : id < t.arena.size) : ∃ n, t.node? id = some n :=
  ⟨_, Array.getElem?_eq_getElem bound⟩

theorem above_of_mem_ancestorsWithin {n : Nat} {id a : NodeId}
    (listed : a ∈ t.ancestorsWithin n id) : t.Above id a := by
  induction n generalizing id with
  | zero => cases listed
  | succ n ih =>
    rw [ancestorsWithin] at listed
    split at listed
    · rename_i p parent
      rcases List.mem_cons.mp listed with rfl | listed
      · exact .single parent
      · exact .head parent (ih listed)
    · cases listed

end Tree

namespace Arena.Built

variable {t : Tree} (built : t.arena.Built)

include built

theorem child_lt {id c : Nat} (child : t.Child id c) : c < id := by
  obtain ⟨k, kind, mem⟩ := child
  obtain ⟨n, found, rfl⟩ := Option.map_eq_some_iff.mp kind
  exact built.children_lt found c mem

theorem parent_gt {i p : Nat} (parent : t.parent? i = some p) : i < p ∧ p < t.arena.size := by
  obtain ⟨n, found, parent⟩ := Option.bind_eq_some_iff.mp parent
  exact built.parent_between found parent

/-- A walk upwards is complete if its limit reaches to the end of the arena. -/
theorem mem_ancestorsWithin {n id a : Nat} (limit : t.arena.size ≤ n + id)
    (above : t.Above id a) : a ∈ t.ancestorsWithin n id := by
  induction n generalizing id with
  | zero =>
    obtain ⟨p, parent, -⟩ := TransGen.head'_iff.mp above
    have bounds := built.parent_gt parent
    omega
  | succ n ih =>
    obtain ⟨p, parent, way⟩ := TransGen.head'_iff.mp above
    have bounds := built.parent_gt parent
    have rest : t.arena.size ≤ n + p := by omega
    rw [Tree.ancestorsWithin, parent]
    rcases reflTransGen_iff_eq_or_transGen.mp way with rfl | way
    · exact List.mem_cons_self
    · exact List.mem_cons_of_mem p (ih rest way)

theorem mem_ancestors_iff (id a : NodeId) : a ∈ t.ancestors id ↔ t.Above id a := by
  constructor
  · exact Tree.above_of_mem_ancestorsWithin
  · exact built.mem_ancestorsWithin (by omega)

end Arena.Built

end Dartify
