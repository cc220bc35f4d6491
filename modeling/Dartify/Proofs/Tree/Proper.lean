import Dartify.Proofs.Dart.Order
import Dartify.Proofs.Tree.Stored

/-! Trees in which every node but the root has one place. Main statements: the tree of a sketch has
the root last, and every other node is a child at exactly one place, so all nodes lie below the
root; and the parent of a node is the one that lists it. -/
namespace Dartify

open Relation

/-! ## Parents -/

namespace Arena.Built

variable {a : Arena} (built : a.Built)

include built

/-- A parent lists its child. -/
theorem listed_of_parent {i p : Nat} {n : Node} (found : a.nodes[i]? = some n)
    (parent : n.parent = some p) : ∃ m, a.nodes[p]? = some m ∧ i ∈ m.kind.children := by
  induction built generalizing i n with
  | empty => cases found
  | @push a built kind site known ih =>
    rw [getElem?_push] at found
    split at found
    · cases found
      cases parent
    · obtain ⟨old, before, rfl⟩ := Option.map_eq_some_iff.mp found
      split at parent
      · rename_i child
        cases parent
        exact ⟨_, by rw [getElem?_push, if_pos rfl], child⟩
      · obtain ⟨m, lists, mem⟩ := ih before parent
        have bounds := built.parent_between before parent
        have other : p ≠ a.size := Nat.ne_of_lt bounds.2
        refine ⟨_, by rw [getElem?_push, if_neg other, lists]; rfl, ?_⟩
        split <;> exact mem

/-- A node that is listed has a parent. -/
theorem exists_parent {i p : Nat} {m : Node} (found : a.nodes[p]? = some m)
    (child : i ∈ m.kind.children) : ∃ n q, a.nodes[i]? = some n ∧ n.parent = some q := by
  induction built generalizing p m with
  | empty => cases found
  | @push a built kind site known ih =>
    have inside : i < a.size := by
      rw [getElem?_push] at found
      split at found
      · cases found
        exact known i child
      · rename_i other
        obtain ⟨old, before, rfl⟩ := Option.map_eq_some_iff.mp found
        have child : i ∈ old.kind.children := by split at child <;> exact child
        have lower := built.children_lt before i child
        have upper : p < a.nodes.size := (Array.getElem?_eq_some_iff.mp before).1
        exact Nat.lt_trans lower upper
    obtain ⟨old, before⟩ : ∃ old, a.nodes[i]? = some old :=
      ⟨_, Array.getElem?_eq_getElem inside⟩
    have now : (a.push kind site).nodes[i]? =
        some (if i ∈ kind.children then { old with parent := some a.size } else old) := by
      rw [getElem?_push, if_neg (Nat.ne_of_lt inside), before]
      rfl
    by_cases new : i ∈ kind.children
    · exact ⟨_, a.size, now, by rw [if_pos new]⟩
    · rw [if_neg new] at now
      rw [getElem?_push] at found
      split at found
      · cases found
        exact absurd child new
      · obtain ⟨lister, lists, rfl⟩ := Option.map_eq_some_iff.mp found
        have child : i ∈ lister.kind.children := by split at child <;> exact child
        obtain ⟨n, q, found, parent⟩ := ih lists child
        rw [before] at found
        cases found
        exact ⟨old, q, now, parent⟩

end Arena.Built

namespace Arena.Built

variable {t : Tree} (built : t.arena.Built)

include built

theorem child_of_parent {i p : NodeId} (parent : t.parent? i = some p) : t.Child p i := by
  obtain ⟨n, found, parent⟩ := Option.bind_eq_some_iff.mp parent
  obtain ⟨m, lists, mem⟩ := built.listed_of_parent found parent
  exact ⟨m.kind, Option.map_eq_some_iff.mpr ⟨m, lists, rfl⟩, mem⟩

theorem parent_of_child {i p : NodeId} (child : t.Child p i) : ∃ q, t.parent? i = some q := by
  obtain ⟨k, kind, mem⟩ := child
  obtain ⟨m, found, rfl⟩ := Option.map_eq_some_iff.mp kind
  obtain ⟨n, q, found, parent⟩ := built.exists_parent found mem
  exact ⟨q, Option.bind_eq_some_iff.mpr ⟨n, found, parent⟩⟩

end Arena.Built

namespace Tree

variable {t : Tree}

/-- A place of a node: a node that lists it, and where. -/
def Place (t : Tree) (id : NodeId) (place : NodeId × Nat) : Prop :=
  ∃ k, t.kind? place.1 = some k ∧ k.children[place.2]? = some id

theorem exists_place_of_child {p id : NodeId} (child : t.Child p id) :
    ∃ j, t.Place id (p, j) := by
  obtain ⟨k, kind, mem⟩ := child
  obtain ⟨j, at_⟩ := List.mem_iff_getElem?.mp mem
  exact ⟨j, k, kind, at_⟩

theorem Place.child {id : NodeId} {place : NodeId × Nat} (h : t.Place id place) :
    t.Child place.1 id := by
  obtain ⟨k, kind, at_⟩ := h
  exact ⟨k, kind, List.mem_of_getElem? at_⟩

end Tree

/-! ## Places -/

/-- In lists that together hold nothing twice, an element has one place. -/
theorem eq_of_nodup_flatten {α : Type} {ls : List (List α)} (once : ls.flatten.Nodup) {a : α}
    {i i' j j' : Nat} {l l' : List α} (at_ : ls[i]? = some l) (at' : ls[i']? = some l')
    (here : l[j]? = some a) (here' : l'[j']? = some a) : i = i' ∧ j = j' := by
  rw [List.nodup_flatten] at once
  obtain ⟨each, apart⟩ := once
  have same : i = i' := by
    by_contra other
    rw [List.pairwise_iff_getElem] at apart
    obtain ⟨bound, rfl⟩ := List.getElem?_eq_some_iff.mp at_
    obtain ⟨bound', rfl⟩ := List.getElem?_eq_some_iff.mp at'
    have mem := List.mem_of_getElem? here
    have mem' := List.mem_of_getElem? here'
    rcases Nat.lt_or_gt_of_ne other with less | less
    · exact apart i i' bound bound' less mem mem'
    · exact apart i' i bound' bound less mem' mem
  subst same
  rw [at_] at at'
  cases at'
  have distinct := each l (List.mem_of_getElem? at_)
  obtain ⟨bound, -⟩ := List.getElem?_eq_some_iff.mp here
  exact ⟨rfl, (List.getElem?_inj bound distinct).mp (here.trans here'.symm)⟩

namespace Sketch

variable (s : Sketch) (fileName : String) (text : List Char) (numbered : s.Everywhere Numbered)

include numbered

theorem exists_child {id : Nat} (inside : id + 1 < s.size) :
    ∃ p, (s.tree fileName text).Child p id := by
  have perm := childrenOf_layout s numbered 0
  have mem : id ∈ childrenOf (s.layout 0) := by
    rw [perm.mem_iff, List.mem_range'_1]
    omega
  obtain ⟨e, known, child⟩ := List.mem_flatMap.mp mem
  obtain ⟨p, at_⟩ := List.mem_iff_getElem?.mp known
  exact ⟨p, e.kind, by rw [kind?_tree, at_]; rfl, child⟩

theorem existsUnique_place {id : Nat} (inside : id + 1 < s.size) :
    ∃! place, (s.tree fileName text).Place id place := by
  obtain ⟨p, child⟩ := exists_child s fileName text numbered inside
  obtain ⟨j, place⟩ := Tree.exists_place_of_child child
  have once : ((s.layout 0).map fun e => e.kind.children).flatten.Nodup := by
    have perm := childrenOf_layout s numbered 0
    rw [childrenOf, List.flatMap] at perm
    exact perm.nodup_iff.mpr List.nodup_range'
  have at_ : ∀ {q : NodeId} {k : NodeKind}, (s.tree fileName text).kind? q = some k →
      ((s.layout 0).map fun e => e.kind.children)[q]? = some k.children := by
    intro q k kind
    rw [kind?_tree, Option.map_eq_some_iff] at kind
    obtain ⟨e, at_, rfl⟩ := kind
    rw [List.getElem?_map, at_]
    rfl
  refine ⟨(p, j), place, ?_⟩
  rintro ⟨p', j'⟩ ⟨k', kind', here'⟩
  obtain ⟨k, kind, here⟩ := place
  have same := eq_of_nodup_flatten once (at_ kind') (at_ kind) here' here
  exact Prod.ext same.1 same.2

/-- Every node lies below the root. -/
theorem below_root {id : Nat} (inside : id < s.size) :
    (s.tree fileName text).Below (s.tree fileName text).root id := by
  have root := root_tree s fileName text
  induction distance : s.size - id using Nat.strongRecOn generalizing id with
  | ind n ih =>
    by_cases last : id = (s.tree fileName text).root
    · rw [last]
      exact .refl
    · have before : id + 1 < s.size := by
        have other : id + 1 ≠ s.size := fun same => last (Nat.succ.inj (same.trans root.symm))
        omega
      obtain ⟨p, child⟩ := exists_child s fileName text numbered before
      have lower : id < (p : Nat) := (built_tree s fileName text numbered).arena.child_lt child
      have upper : (p : Nat) < s.size := by
        obtain ⟨k, kind, -⟩ := child
        rw [kind?_tree, Option.map_eq_some_iff] at kind
        obtain ⟨e, at_, -⟩ := kind
        rw [← length_layout s 0]
        exact (List.getElem?_eq_some_iff.mp at_).1
      exact (ih (s.size - p) (by omega) upper rfl).tail child

end Sketch

end Dartify
