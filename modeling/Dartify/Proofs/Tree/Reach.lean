import Mathlib.Logic.Relation
import Dartify.Tree.Basic

/-! The nodes that hang together by children, and the comments that they report. -/
namespace Dartify.Tree

open Relation

/-- A node has another among its children. -/
def Child (t : Tree) (id child : NodeId) : Prop :=
  ∃ k, t.kind? id = some k ∧ child ∈ k.children

/-- The second node is the first or lies below it. -/
def Below (t : Tree) : NodeId → NodeId → Prop := ReflTransGen t.Child

/-- The comments that a node reports. -/
def commentsOf (t : Tree) (id : NodeId) : List Comment.Range :=
  match t.node? id with
  | some n => t.leadingComments n
  | none => []

/-- Some node of the tree reports a comment. -/
def Reports (t : Tree) (r : Comment.Range) : Prop :=
  ∃ id, t.Below t.root id ∧ r ∈ t.commentsOf id

theorem below_of_mem_preorderWithin {t : Tree} {n depth : Nat} {id : NodeId} {entry : Nat × NodeId}
    (listed : entry ∈ t.preorderWithin n depth id) : t.Below id entry.2 := by
  induction n generalizing depth id with
  | zero => cases listed
  | succ n ih =>
    rw [preorderWithin] at listed
    rcases List.mem_cons.mp listed with rfl | listed
    · exact ReflTransGen.refl
    · split at listed
      · rename_i k kind
        obtain ⟨child, mem, listed⟩ := List.mem_flatMap.mp listed
        exact ReflTransGen.head ⟨k, kind, mem⟩ (ih listed)
      · cases listed

theorem reports_of_mem_preorder {t : Tree} {r : Comment.Range}
    (listed : ∃ entry ∈ t.preorder, r ∈ t.commentsOf entry.2) : t.Reports r := by
  obtain ⟨entry, mem, reported⟩ := listed
  exact ⟨entry.2, below_of_mem_preorderWithin mem, reported⟩

end Dartify.Tree
