import Mathlib.Algebra.BigOperators.Group.Finset.Basic
import Mathlib.Algebra.GroupWithZero.Nat
import Dartify.Proofs.Dart.Order
import Dartify.Proofs.Tree.Proper

/-! Counting nodes. Where no node is a child twice, there is one way from the root to each node that
it reaches, so the order of writing lists every such node once, and sums over the nodes that the
root reaches can be taken in this order. -/
namespace Dartify

open Relation

theorem perm_callable {α : Type} (name body : α) (returnType typeParameters parameters : List α) :
    (returnType ++ name :: typeParameters ++ parameters ++ [body]).Perm
      (name :: typeParameters ++ parameters ++ returnType ++ [body]) := by
  simp only [List.append_assoc, List.cons_append]
  apply List.perm_middle.trans
  apply List.Perm.cons
  have moved : (returnType ++ (typeParameters ++ parameters)).Perm
      ((typeParameters ++ parameters) ++ returnType) := List.perm_append_comm
  simpa only [List.append_assoc] using moved.append_right [body]

theorem NodeKind.writingOrder_perm (k : NodeKind) : k.writingOrder.Perm k.children := by
  cases k with
  | variableDeclaration name type value => exact List.perm_middle
  | propertyDeclaration name type value => exact List.perm_middle
  | parameter name type value rest => exact List.perm_middle
  | functionDeclaration name typeParameters parameters returnType body =>
    exact perm_callable name body returnType.toList (typeParameters.getD []) parameters
  | methodDeclaration name typeParameters parameters returnType body =>
    exact perm_callable name body returnType.toList (typeParameters.getD []) parameters
  | _ => exact List.Perm.refl _

namespace Tree

/-- No node is a child twice, of one node or of two. -/
def ChildrenOnce (t : Tree) : Prop :=
  (t.arena.nodes.toList.map fun n => n.kind.children).flatten.Nodup

instance (t : Tree) : Decidable t.ChildrenOnce :=
  inferInstanceAs (Decidable (List.Nodup _))

variable {t : Tree}

theorem mem_nodes {id : NodeId} {n : Node} (found : t.node? id = some n) :
    n ∈ t.arena.nodes.toList :=
  Array.mem_toList_iff.mpr (Array.mem_of_getElem? found)

theorem exists_of_mem_commentsOf {id : NodeId} {r : Comment.Range}
    (reported : r ∈ t.commentsOf id) : ∃ n ∈ t.arena.nodes.toList, r ∈ t.leadingComments n := by
  unfold commentsOf at reported
  split at reported
  · rename_i n found
    exact ⟨n, mem_nodes found, reported⟩
  · cases reported

theorem getElem?_children {id : NodeId} {k : NodeKind} (kind : t.kind? id = some k) :
    (t.arena.nodes.toList.map fun n => n.kind.children)[id]? = some k.children := by
  obtain ⟨n, found, rfl⟩ := Option.map_eq_some_iff.mp kind
  have at_ : t.arena.nodes.toList[id]? = some n := by rw [Array.getElem?_toList]; exact found
  rw [List.getElem?_map, at_]
  rfl

theorem ChildrenOnce.nodup (once : t.ChildrenOnce) {id : NodeId} {k : NodeKind}
    (kind : t.kind? id = some k) : k.children.Nodup :=
  (List.nodup_flatten.mp once).1 _ (List.mem_of_getElem? (getElem?_children kind))

theorem ChildrenOnce.parent_unique (once : t.ChildrenOnce) {p q id : NodeId}
    (child : t.Child p id) (child' : t.Child q id) : p = q := by
  obtain ⟨j, k, kind, at_⟩ := exists_place_of_child child
  obtain ⟨j', k', kind', at'⟩ := exists_place_of_child child'
  exact (eq_of_nodup_flatten once (getElem?_children kind) (getElem?_children kind') at_ at').1

theorem Built.below_le (built : t.Built) {id b : Nat} (way : t.Below id b) : b ≤ id := by
  induction way with
  | refl => exact Nat.le_refl _
  | tail way child ih => exact Nat.le_trans (Nat.le_of_lt (built.arena.child_lt child)) ih

theorem ChildrenOnce.below_or_below (once : t.ChildrenOnce) {a a' b : NodeId}
    (way : t.Below a b) (way' : t.Below a' b) : t.Below a a' ∨ t.Below a' a := by
  have unique : Relator.RightUnique (Function.swap t.Child) :=
    fun _ _ _ child child' => once.parent_unique child child'
  rcases ReflTransGen.total_of_right_unique unique way.swap way'.swap with up | up
  · exact Or.inr (reflTransGen_swap.mp up)
  · exact Or.inl (reflTransGen_swap.mp up)

/-- What lies below one child lies below no other. -/
theorem Built.child_eq_of_below (built : t.Built) (once : t.ChildrenOnce) {id c c' b : NodeId}
    (child : t.Child id c) (child' : t.Child id c') (way : t.Below c b) (way' : t.Below c' b) :
    c = c' := by
  -- A way from one child to another would lead through their parent.
  have apart : ∀ {x y : NodeId}, t.Child id x → t.Child id y → t.Below x y → x = y := by
    intro x y child child' way
    rcases ReflTransGen.cases_tail way with same | ⟨p, way, last⟩
    · exact same.symm
    · obtain rfl := once.parent_unique last child'
      exact absurd (built.below_le way) (Nat.not_le_of_lt (built.arena.child_lt child))
  rcases once.below_or_below way way' with down | down
  · exact apart child child' down
  · exact (apart child' child down).symm

theorem Built.nodup_writingWithin (built : t.Built) (once : t.ChildrenOnce) (n : Nat)
    (id : NodeId) : (t.writingWithin n id).Nodup := by
  induction n generalizing id with
  | zero => exact List.nodup_nil
  | succ n ih =>
    rw [writingWithin]
    split
    · rename_i k kind
      have child : ∀ {c : NodeId}, c ∈ k.writingOrder → t.Child id c :=
        fun mem => ⟨k, kind, NodeKind.mem_writingOrder.mp mem⟩
      rw [List.nodup_cons, List.nodup_flatMap]
      refine ⟨?_, fun c _ => ih c, ?_⟩
      · intro listed
        obtain ⟨c, mem, listed⟩ := List.mem_flatMap.mp listed
        exact absurd (built.below_le (below_of_mem_writingWithin listed))
          (Nat.not_le_of_lt (built.arena.child_lt (child mem)))
      · have distinct : k.writingOrder.Nodup := k.writingOrder_perm.nodup_iff.mpr (once.nodup kind)
        apply distinct.pairwise_of_forall_ne
        intro c mem c' mem' other b listed listed'
        apply other
        exact built.child_eq_of_below once (child mem) (child mem')
          (below_of_mem_writingWithin listed) (below_of_mem_writingWithin listed')
    · exact List.nodup_singleton id

/-! ## The nodes that the root reaches -/

open Classical in
noncomputable def reached (t : Tree) : Finset NodeId :=
  {id ∈ Finset.range t.arena.size | t.Below t.root id}

theorem Built.mem_reached (built : t.Built) {id : NodeId} :
    id ∈ t.reached ↔ t.Below t.root id := by
  simp only [reached, Finset.mem_filter, Finset.mem_range]
  exact and_iff_right_of_imp fun way => Nat.lt_of_le_of_lt (built.below_le way) built.root

theorem Built.toFinset_writingOrder (built : t.Built) : t.writingOrder.toFinset = t.reached := by
  ext id
  rw [List.mem_toFinset, built.mem_writingOrder_iff, built.mem_reached]

theorem Built.sum_writingOrder (built : t.Built) (once : t.ChildrenOnce) (f : NodeId → Nat) :
    (t.writingOrder.map f).sum = ∑ id ∈ t.reached, f id := by
  rw [← built.toFinset_writingOrder]
  exact (List.sum_toFinset f (built.nodup_writingWithin once _ _)).symm

end Tree

end Dartify
