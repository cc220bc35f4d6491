import Dartify.Proofs.Tree.Census

/-! Parents mirror children. An added node becomes the parent of all that it lists, so a parent is
the node added last among those that list its child, and the walk upwards goes through ever later
nodes until it comes to one that no node lists. Main statement: what parents and ancestors of a tree
are, in terms of children alone. -/
namespace Dartify

open Relation

/-- No node that lists another has been added later than its parent. -/
theorem Arena.Built.lister_le {a : Arena} (built : a.Built) {i p q : Nat} {n m : Node}
    (found : a.nodes[i]? = some n) (parent : n.parent = some p) (lists : a.nodes[q]? = some m)
    (child : i ∈ m.kind.children) : q ≤ p := by
  induction built generalizing i n q m with
  | empty => cases found
  | @push a built kind site known ih =>
    rw [getElem?_push] at found lists
    split at found
    · cases found
      cases parent
    obtain ⟨old, before, rfl⟩ := Option.map_eq_some_iff.mp found
    split at lists
    · rename_i latest
      cases lists
      rw [if_pos child] at parent
      exact Nat.le_of_eq (latest.trans (Option.some.inj parent))
    obtain ⟨lister, earlier, rfl⟩ := Option.map_eq_some_iff.mp lists
    have child : i ∈ lister.kind.children := by split at child <;> exact child
    split at parent
    · have bound : q < a.size := (Array.getElem?_eq_some_iff.mp earlier).1
      exact Option.some.inj parent ▸ Nat.le_of_lt bound
    · exact ih before parent earlier child

namespace Tree

/-- A node lists another, and is the last added that does. -/
def LastLister (t : Tree) (p i : NodeId) : Prop := t.Child p i ∧ ∀ q, t.Child q i → q ≤ p

/-- A list is the whole way up from a node: each entry is the parent of the one before it, and the
last has none. -/
inductive WayUp (t : Tree) : NodeId → List NodeId → Prop
  | top {i : NodeId} (none : t.parent? i = none) : WayUp t i []
  | step {i p : NodeId} {rest : List NodeId} (parent : t.parent? i = some p)
      (upwards : WayUp t p rest) : WayUp t i (p :: rest)

variable {t : Tree}

theorem WayUp.unique {i : NodeId} {way way' : List NodeId} (h : t.WayUp i way)
    (h' : t.WayUp i way') : way' = way := by
  induction h generalizing way' with
  | top none =>
    cases h' with
    | top => rfl
    | step parent => rw [none] at parent; cases parent
  | @step i p rest parent upwards ih =>
    cases h' with
    | top none => rw [none] at parent; cases parent
    | step parent' upwards' =>
      obtain rfl : p = _ := Option.some.inj (parent.symm.trans parent')
      rw [ih upwards']

end Tree

namespace Arena.Built

variable {t : Tree} (built : t.arena.Built)

include built

theorem parent_iff {i p : NodeId} : t.parent? i = some p ↔ t.LastLister p i := by
  have latest : ∀ {p q : NodeId}, t.parent? i = some p → t.Child q i → q ≤ p := by
    rintro p q parent ⟨k, kind, mem⟩
    obtain ⟨n, found, parent⟩ := Option.bind_eq_some_iff.mp parent
    obtain ⟨m, lists, rfl⟩ := Option.map_eq_some_iff.mp kind
    exact built.lister_le found parent lists mem
  constructor
  · exact fun parent => ⟨built.child_of_parent parent, fun q child => latest parent child⟩
  · rintro ⟨child, last⟩
    obtain ⟨q, parent⟩ := built.parent_of_child child
    have le := last q (built.child_of_parent parent)
    rw [parent, Nat.le_antisymm le (latest parent child)]

theorem parent_none_iff {i : NodeId} : t.parent? i = none ↔ ∀ p, ¬ t.Child p i := by
  constructor
  · intro none p child
    obtain ⟨q, parent⟩ := built.parent_of_child child
    rw [none] at parent
    cases parent
  · intro unlisted
    cases parent : t.parent? i with
    | none => rfl
    | some p => exact absurd (built.child_of_parent parent) (unlisted p)

/-- Parents are added later than their children, so a walk of as many steps as there are later
nodes comes to the top. -/
theorem wayUp_ancestorsWithin {n i : Nat} (limit : t.arena.size ≤ n + i) :
    t.WayUp i (t.ancestorsWithin n i) := by
  induction n generalizing i with
  | zero =>
    refine .top ?_
    cases parent : t.parent? i with
    | none => rfl
    | some p =>
      have bounds := built.parent_gt parent
      omega
  | succ n ih =>
    rw [Tree.ancestorsWithin]
    split
    · rename_i p parent
      have bounds := built.parent_gt parent
      exact .step parent (ih (by omega))
    · rename_i none
      exact .top none

theorem wayUp_ancestors (i : NodeId) : t.WayUp i (t.ancestors i) :=
  built.wayUp_ancestorsWithin (Nat.le_add_right _ _)

theorem pairwise_wayUp {i : NodeId} {way : List NodeId} (h : t.WayUp i way) :
    (i :: way).Pairwise (· < ·) := by
  rw [← List.isChain_iff_pairwise]
  induction h with
  | top none => exact .singleton _
  | step parent upwards ih => exact .cons_cons (built.parent_gt parent).1 ih

theorem descendant_of_above {i j : NodeId} (above : t.Above i j) : TransGen t.Child j i :=
  transGen_swap.mp (TransGen.mono (fun _ _ => built.child_of_parent) _ _ above)

theorem above_iff_descendant (once : t.ChildrenOnce) {i j : NodeId} :
    t.Above i j ↔ TransGen t.Child j i := by
  have upwards : ∀ i p, t.Child p i → t.parent? i = some p := fun i p child =>
    built.parent_iff.mpr ⟨child, fun q other => (once.parent_unique other child).le⟩
  constructor
  · exact built.descendant_of_above
  · exact fun way => TransGen.mono upwards _ _ (transGen_swap.mpr way)

end Arena.Built

/-- Parents and ancestors in a tree of nodes that were added children first, some of them possibly
under several nodes. -/
theorem Tree.parents_mirror_children {t : Tree} (built : t.arena.Built) :
    (∀ i p, t.parent? i = some p ↔ t.LastLister p i) ∧
      (∀ i, t.parent? i = none ↔ ∀ p, ¬ t.Child p i) ∧
      (∀ i p, t.parent? i = some p → i < p) ∧
      (∀ i way, t.WayUp i way ↔ way = t.ancestors i) ∧
      (∀ i, (i :: t.ancestors i).Pairwise (· < ·)) ∧
      (t.ChildrenOnce → ∀ i j, j ∈ t.ancestors i ↔ TransGen t.Child j i) := by
  refine ⟨fun i p => built.parent_iff, fun i => built.parent_none_iff,
    fun i p parent => (built.parent_gt parent).1, fun i way => ?_, fun i => ?_, fun once i j => ?_⟩
  · have whole := built.wayUp_ancestors i
    exact ⟨whole.unique, fun same => same ▸ whole⟩
  · exact built.pairwise_wayUp (built.wayUp_ancestors i)
  · exact (built.mem_ancestors_iff i j).trans (built.above_iff_descendant once)

/-- The file `a + 1;`. -/
def sumFile : Tree where
  fileName := "a.ts"
  text := "a + 1;".toList
  arena :=
    Arena.empty.push (.identifier "a") ⟨0, 1, 0, 0, 0⟩
      |>.push (.numericLiteral "1") ⟨4, 5, 3, 0, 4⟩
      |>.push (.binary 0 .add 1) ⟨0, 5, 0, 0, 0⟩
      |>.push .endOfFile ⟨6, 6, 6, 0, 6⟩
      |>.push (.expressionStatement 2) ⟨0, 6, 0, 0, 0⟩
      |>.push (.sourceFile [4] 3) ⟨0, 6, 0, 0, 0⟩
  root := 5

theorem Tree.parents_mirror_children_sumFile :
    sumFile.arena.Built ∧ sumFile.ChildrenOnce ∧ sumFile.ancestors 0 = [2, 4, 5] ∧
      sumFile.LastLister 2 0 ∧ (∀ p, ¬ sumFile.Child p 5) ∧ TransGen sumFile.Child 5 0 := by
  have built : sumFile.arena.Built := by
    iterate 6 refine .push ?_ _ _ (by decide)
    exact .empty
  have once : sumFile.ChildrenOnce := by decide
  obtain ⟨parent, top, -, -, -, descendants⟩ := Tree.parents_mirror_children built
  exact ⟨built, once, by decide, (parent 0 2).mp (by decide), (top 5).mp (by decide),
    (descendants once 0 5).mp (by decide)⟩

end Dartify
