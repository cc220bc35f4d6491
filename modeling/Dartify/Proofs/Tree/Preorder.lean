import Mathlib.Data.List.Perm.Subperm
import Dartify.Proofs.Abstraction.Along
import Dartify.Proofs.Tree.Proper

/-! Trees in preorder. Main statements, for the tree of a sketch: its preorder lists every node once,
and in preorder the nodes stand where those of the sketch stand. -/
namespace Dartify

open Relation

namespace Tree

/-- The nodes of a tree in preorder. -/
def inPreorder (t : Tree) : List Node := t.preorder.filterMap fun entry => t.node? entry.2

def site? (t : Tree) (id : NodeId) : Option Site := (t.node? id).map (·.site)

variable {t : Tree}

theorem Built.mem_preorderWithin (built : t.Built) {n depth id b : Nat} (limit : id < n)
    (way : t.Below id b) : b ∈ (t.preorderWithin n depth id).map Prod.snd := by
  induction n generalizing depth id with
  | zero => cases limit
  | succ n ih =>
    rw [preorderWithin, List.map_cons]
    rcases ReflTransGen.cases_head way with rfl | ⟨c, child, way⟩
    · exact List.mem_cons_self
    · have lower : c < n :=
        Nat.lt_of_lt_of_le (built.arena.child_lt child) (Nat.le_of_lt_succ limit)
      obtain ⟨k, kind, mem⟩ := child
      rw [kind]
      simp only [List.map_flatMap]
      exact List.mem_cons_of_mem id (List.mem_flatMap.mpr ⟨c, mem, ih lower way⟩)

end Tree

namespace Sketch

/-! ## Sites -/

mutual

theorem length_sites : (s : Sketch) → s.sites.length = s.size
  | node _ _ parts => by rw [sites, size, List.length_cons, length_sitesOf parts]

theorem length_sitesOf : (ss : List Sketch) → (sitesOf ss).length = sizeAll ss
  | [] => rfl
  | s :: ss => by rw [sitesOf, sizeAll, List.length_append, length_sites s, length_sitesOf ss]

end

mutual

theorem site_mem_sites : (s : Sketch) → ∀ start, ∀ e ∈ s.layout start, e.site ∈ s.sites
  | node site _ parts, start, e, mem => by
    rw [layout] at mem
    rcases List.mem_append.mp mem with mem | mem
    · exact List.mem_cons_of_mem site (site_mem_sitesOf parts start e mem)
    · rw [List.mem_singleton.mp mem]
      exact List.mem_cons_self

theorem site_mem_sitesOf :
    (ss : List Sketch) → ∀ start, ∀ e ∈ layoutAll ss start, e.site ∈ sitesOf ss
  | [], _, _, mem => by cases mem
  | s :: ss, start, e, mem => by
    rw [layoutAll] at mem
    rcases List.mem_append.mp mem with mem | mem
    · exact List.mem_append_left _ (site_mem_sites s start e mem)
    · exact List.mem_append_right _ (site_mem_sitesOf ss (start + s.size) e mem)

end

section

variable {s : Sketch} {fileName : String} {text : List Char} {id : NodeId} {n : Node}

theorem getElem?_layout (node : (s.tree fileName text).node? id = some n) :
    (s.layout 0)[id]? = some ⟨n.kind, n.site⟩ := by
  rw [← entries_tree s fileName text, Arena.getElem?_entries]
  exact congrArg (Option.map _) node

/-- A node that is not the root stands where a part of the sketch stands. -/
theorem site_mem_parts {site : Site} {kind : NodeKind} {parts : List Sketch}
    (node : ((Sketch.node site kind parts).tree fileName text).node? id = some n)
    (below : id ≠ ((Sketch.node site kind parts).tree fileName text).root) :
    n.site ∈ sitesOf parts := by
  have root := root_tree (.node site kind parts) fileName text
  have at_ := getElem?_layout node
  -- The root is the last entry, so any other node is an entry of a part.
  rw [layout] at at_
  have early : id < (layoutAll parts 0).length := by
    have bound := (List.getElem?_eq_some_iff.mp at_).1
    rw [List.length_append, List.length_singleton, length_layoutAll] at bound
    rw [length_layoutAll]
    refine Nat.lt_of_le_of_ne (Nat.le_of_lt_succ bound) fun same => below ?_
    rw [same]
    exact (Nat.succ.inj root).symm
  rw [List.getElem?_append_left early] at at_
  exact site_mem_sitesOf parts 0 _ (List.mem_of_getElem? at_)

end

/-! ## Preorder -/

section

variable {t : Tree}

mutual

/-- Where a sketch lies in an arena, the preorder below its root goes over its sites. -/
theorem preorder_layout : (s : Sketch) → s.Everywhere Numbered →
    ∀ (front back : List Arena.Entry) (n depth : Nat),
      t.arena.entries = front ++ s.layout front.length ++ back → s.size ≤ n →
        (t.preorderWithin n depth (front.length + s.size - 1)).map (fun entry => t.site? entry.2) =
          s.sites.map some
  | node site kind parts, .node here below, front, back, n, depth, entries, limit => by
    have numbered : kind.children = List.range parts.length := by simpa [Numbered] using here
    obtain ⟨n, rfl⟩ : ∃ m, n = m + 1 := ⟨n - 1, by rw [size] at limit; omega⟩
    have found : t.arena.entries[front.length + (node site kind parts).size - 1]? =
        some ⟨kind.relabel fun i => (roots parts front.length).getD i 0, site⟩ := by
      rw [entries]
      exact getElem?_layout_root front back site kind parts
    have place : t.site? (front.length + (node site kind parts).size - 1) = some site := by
      rw [Arena.getElem?_entries, Option.map_eq_some_iff] at found
      obtain ⟨m, found, same⟩ := found
      exact Option.map_eq_some_iff.mpr ⟨m, found, congrArg Arena.Entry.site same⟩
    rw [Tree.preorderWithin, Arena.kind?_eq_entries, found, List.map_cons, place, sites,
      List.map_cons]
    simp only [Option.map_some, children_relabel_roots front.length numbered]
    rw [preorder_layoutAll parts below front _ n (depth + 1)
      (by rw [entries, layout, ← List.append_assoc, List.append_assoc])
      (by rw [size] at limit; omega)]

theorem preorder_layoutAll : (ss : List Sketch) → (∀ p ∈ ss, p.Everywhere Numbered) →
    ∀ (front back : List Arena.Entry) (n depth : Nat),
      t.arena.entries = front ++ layoutAll ss front.length ++ back → sizeAll ss ≤ n →
        ((roots ss front.length).flatMap (t.preorderWithin n depth)).map
            (fun entry => t.site? entry.2) =
          (sitesOf ss).map some
  | [], _, _, _, _, _, _, _ => rfl
  | s :: ss, numbered, front, back, n, depth, entries, limit => by
    have length : (front ++ s.layout front.length).length = front.length + s.size := by
      rw [List.length_append, length_layout]
    rw [sizeAll] at limit
    have first := preorder_layout s (numbered s List.mem_cons_self) front
      (layoutAll ss (front.length + s.size) ++ back) n depth
      (by rw [entries, layoutAll]; simp only [List.append_assoc]) (by omega)
    have rest := preorder_layoutAll ss (fun p mem => numbered p (List.mem_cons_of_mem _ mem))
      (front ++ s.layout front.length) back n depth
      (by rw [entries, layoutAll, length]; simp only [List.append_assoc]) (by omega)
    rw [length] at rest
    rw [roots, List.flatMap_cons, List.map_append, first, rest, sitesOf, List.map_append]

end

end

variable (s : Sketch) (fileName : String) (text : List Char) (numbered : s.Everywhere Numbered)

include numbered

theorem preorder_tree :
    (s.tree fileName text).preorder.map (fun entry => (s.tree fileName text).site? entry.2) =
      s.sites.map some := by
  have root := root_tree s fileName text
  have entries := entries_tree s fileName text
  have size := size_tree s fileName text
  have all := preorder_layout (t := s.tree fileName text) s numbered [] []
    (s.tree fileName text).arena.size 0 (by simpa using entries)
    (Nat.le_of_eq size.symm)
  have place : ([] : List Arena.Entry).length + s.size - 1 = (s.tree fileName text).root := by
    rw [← root]
    simp
  rw [place] at all
  exact all

theorem sites_inPreorder :
    (s.tree fileName text).inPreorder.map (·.site) = s.sites := by
  have all := congrArg (List.filterMap id) (preorder_tree s fileName text numbered)
  rw [List.filterMap_map, List.filterMap_map] at all
  rw [Tree.inPreorder, List.map_filterMap]
  exact all.trans List.filterMap_some

/-- The preorder of the tree of a sketch lists every node once. -/
theorem perm_preorder :
    ((s.tree fileName text).preorder.map Prod.snd).Perm
      (List.range (s.tree fileName text).arena.size) := by
  have built := built_tree s fileName text numbered
  have length := congrArg List.length (preorder_tree s fileName text numbered)
  rw [List.length_map, List.length_map, length_sites] at length
  have all : List.range (s.tree fileName text).arena.size ⊆
      (s.tree fileName text).preorder.map Prod.snd := by
    intro id mem
    rw [List.mem_range, size_tree] at mem
    exact built.mem_preorderWithin built.root (below_root s fileName text numbered mem)
  have sub := List.Nodup.subperm List.nodup_range all
  refine (sub.perm_of_length_le (Nat.le_of_eq ?_)).symm
  rw [List.length_map, length, List.length_range, size_tree]

end Sketch

end Dartify
