import Mathlib.Data.List.Forall2
import Mathlib.Data.List.Nodup
import Mathlib.Data.List.Perm.Basic
import Dartify.Proofs.Tree.Built
import Dartify.Tree.Sketch

/-! What storing a sketch makes of an arena. The nodes of the sketch come behind those that were
there, each behind its parts, so the arena of a sketch alone is the sketch, node for node. Main
statements: every node but the root is a child at exactly one place, and what holds of every node
of the sketch and the kinds of its parts holds of every node of the tree and those of its
children. -/
namespace Dartify

namespace Sketch

def kind : Sketch → NodeKind
  | node _ k _ => k

/-- Something holds of every node of a sketch and the kinds of its parts. -/
inductive Everywhere (P : NodeKind → List NodeKind → Prop) : Sketch → Prop
  | node {site : Site} {kind : NodeKind} {parts : List Sketch}
      (here : P kind (parts.map Sketch.kind)) (below : ∀ p ∈ parts, Everywhere P p) :
      Everywhere P (.node site kind parts)

theorem Everywhere.imp {P Q : NodeKind → List NodeKind → Prop} (weaker : ∀ k ks, P k ks → Q k ks)
    {s : Sketch} (h : s.Everywhere P) : s.Everywhere Q := by
  induction h with
  | node here below ih => exact .node (weaker _ _ here) ih

/-- A node refers to its parts by position, in order. -/
def Numbered (kind : NodeKind) (parts : List NodeKind) : Prop :=
  kind.children = List.range parts.length

end Sketch

/-! ## The order of storing -/

/-- A node without its parent. -/
structure Arena.Entry where
  kind : NodeKind
  site : Site

/-- The nodes of an arena without their parents. -/
def Arena.entries (a : Arena) : List Arena.Entry := a.nodes.toList.map fun n => ⟨n.kind, n.site⟩

namespace Arena

theorem length_entries (a : Arena) : a.entries.length = a.size := by simp [entries, size]

theorem getElem?_entries (a : Arena) (i : NodeId) :
    a.entries[i]? = a.nodes[i]?.map fun n => ⟨n.kind, n.site⟩ := by
  simp [entries]

theorem kind?_eq_entries (t : Tree) (id : NodeId) :
    t.kind? id = t.arena.entries[id]?.map Entry.kind := by
  rw [getElem?_entries, Option.map_map]
  rfl

theorem entries_push (a : Arena) (kind : NodeKind) (site : Site) :
    (a.push kind site).entries = a.entries ++ [⟨kind, site⟩] := by
  apply List.ext_getElem?
  intro i
  rw [getElem?_entries, getElem?_push, List.getElem?_append, length_entries, getElem?_entries]
  by_cases new : i = a.size
  · simp [new]
  · by_cases old : i < a.size
    · rw [if_neg new, if_pos old, Option.map_map]
      congr 1
      funext n
      by_cases child : i ∈ kind.children <;> simp [child]
    · have behind : a.nodes[i]? = none := Array.getElem?_eq_none (Nat.le_of_not_lt old)
      have far : [(⟨kind, site⟩ : Arena.Entry)][i - a.size]? = none := by
        rw [List.getElem?_eq_none_iff]
        simp only [List.length_cons, List.length_nil]
        omega
      rw [if_neg new, if_neg old, behind, far]
      rfl

end Arena

namespace Sketch

mutual

/-- The number of nodes. -/
def size : Sketch → Nat
  | node _ _ parts => sizeAll parts + 1

def sizeAll : List Sketch → Nat
  | [] => 0
  | s :: ss => size s + sizeAll ss

end

/-- The indices of the roots of sketches that are stored one after the other. -/
def roots : List Sketch → Nat → List Nat
  | [], _ => []
  | s :: ss, start => (start + s.size - 1) :: roots ss (start + s.size)

mutual

/-- The nodes of a sketch in the order in which they are stored from an index on. -/
def layout : Sketch → Nat → List Arena.Entry
  | node site kind parts, start =>
    layoutAll parts start ++ [⟨kind.relabel fun i => (roots parts start).getD i 0, site⟩]

def layoutAll : List Sketch → Nat → List Arena.Entry
  | [], _ => []
  | s :: ss, start => layout s start ++ layoutAll ss (start + s.size)

end

theorem size_pos (s : Sketch) : 0 < s.size := by
  cases s
  rw [size]
  omega

mutual

theorem length_layout : (s : Sketch) → ∀ start, (s.layout start).length = s.size
  | node _ _ parts, start => by simp [layout, size, length_layoutAll parts]

theorem length_layoutAll :
    (ss : List Sketch) → ∀ start, (layoutAll ss start).length = sizeAll ss
  | [], _ => rfl
  | s :: ss, start => by simp [layoutAll, sizeAll, length_layout s, length_layoutAll ss]

end

@[simp] theorem length_roots (ss : List Sketch) (start : Nat) :
    (roots ss start).length = ss.length := by
  induction ss generalizing start with
  | nil => rfl
  | cons s ss ih => simp [roots, ih]

mutual

theorem store_spec : (s : Sketch) → ∀ a : Arena,
    Nat.succ (s.store a).1 = a.size + s.size ∧ (s.store a).2.entries = a.entries ++ s.layout a.size
  | node site kind parts, a => by
    obtain ⟨ids, entries⟩ := storeAll_spec parts a
    have grown : (storeAll parts a).2.size = a.size + sizeAll parts := by
      rw [← Arena.length_entries, entries, List.length_append, Arena.length_entries,
        length_layoutAll]
    refine ⟨?_, ?_⟩
    · simp only [store, size, grown]
      omega
    · simp [store, Arena.entries_push, entries, ids, layout]

theorem storeAll_spec : (ss : List Sketch) → ∀ a : Arena,
    (storeAll ss a).1 = roots ss a.size ∧
      (storeAll ss a).2.entries = a.entries ++ layoutAll ss a.size
  | [], a => by simp [storeAll, roots, layoutAll]
  | s :: ss, a => by
    obtain ⟨id, entries⟩ := store_spec s a
    have grown : (s.store a).2.size = a.size + s.size := by
      rw [← Arena.length_entries, entries, List.length_append, Arena.length_entries,
        length_layout]
    obtain ⟨ids, more⟩ := storeAll_spec ss (s.store a).2
    refine ⟨?_, ?_⟩
    · simp only [storeAll, ids, grown, roots, List.cons.injEq, and_true]
      exact Nat.eq_sub_of_add_eq id
    · simp [storeAll, more, entries, grown, layoutAll]

end

theorem roots_bounds (ss : List Sketch) (start : Nat) :
    ∀ i ∈ roots ss start, start ≤ i ∧ i < start + sizeAll ss := by
  induction ss generalizing start with
  | nil => simp [roots]
  | cons s ss ih =>
    intro i mem
    have some := s.size_pos
    rw [sizeAll]
    rcases List.mem_cons.mp mem with rfl | mem
    · omega
    · have bounds := ih (start + s.size) i mem
      omega

/-! ## Children -/

theorem map_range_roots (parts : List Sketch) (start : Nat) :
    (List.range parts.length).map (fun i => (roots parts start).getD i 0) = roots parts start := by
  apply List.ext_getElem
  · simp
  · intro i _ bound
    simp [List.getD_eq_getElem?_getD, List.getElem?_eq_getElem bound]

theorem children_relabel_roots {kind : NodeKind} {parts : List Sketch} (start : Nat)
    (numbered : kind.children = List.range parts.length) :
    (kind.relabel fun i => (roots parts start).getD i 0).children = roots parts start := by
  rw [NodeKind.children_relabel, numbered, map_range_roots]

theorem pairwise_roots (ss : List Sketch) (start : Nat) : (roots ss start).Pairwise (· < ·) := by
  induction ss generalizing start with
  | nil => exact .nil
  | cons s ss ih =>
    refine .cons (fun i mem => ?_) (ih _)
    have bounds := roots_bounds ss _ i mem
    have some := s.size_pos
    omega

/-- The children of all nodes, one node after the other. -/
def childrenOf (es : List Arena.Entry) : List Nat := es.flatMap fun e => e.kind.children

theorem childrenOf_append (es fs : List Arena.Entry) :
    childrenOf (es ++ fs) = childrenOf es ++ childrenOf fs := List.flatMap_append

theorem range'_split {start m : Nat} (some : 0 < m) (n : Nat) :
    List.range' start (m + n) =
      (List.range' start (m - 1) ++ [start + m - 1]) ++ List.range' (start + m) n := by
  obtain ⟨k, rfl⟩ : ∃ k, m = k + 1 := ⟨m - 1, by omega⟩
  rw [← List.range'_append_1, List.range'_1_concat]
  rfl

mutual

/-- Below its root, every index of a sketch is listed once. -/
theorem childrenOf_layout : (s : Sketch) → s.Everywhere Numbered → ∀ start,
    (childrenOf (s.layout start)).Perm (List.range' start (s.size - 1))
  | node site kind parts, .node here below, start => by
    have numbered : kind.children = List.range parts.length := by
      simpa [Numbered] using here
    rw [layout, childrenOf_append]
    simp only [childrenOf, List.flatMap_cons, List.flatMap_nil, List.append_nil,
      children_relabel_roots start numbered, size, Nat.add_sub_cancel]
    exact childrenOf_layoutAll parts below start

/-- The roots of sketches in a row are listed by none of them. -/
theorem childrenOf_layoutAll : (ss : List Sketch) → (∀ p ∈ ss, p.Everywhere Numbered) → ∀ start,
    (childrenOf (layoutAll ss start) ++ roots ss start).Perm (List.range' start (sizeAll ss))
  | [], _, _ => .refl _
  | s :: ss, numbered, start => by
    have first := childrenOf_layout s (numbered s List.mem_cons_self) start
    have rest := childrenOf_layoutAll ss (fun p mem => numbered p (List.mem_cons_of_mem _ mem))
      (start + s.size)
    -- The root of the first sketch stands behind its parts, so it moves in front of the others.
    have moved : (childrenOf (s.layout start) ++ childrenOf (layoutAll ss (start + s.size)) ++
        (start + s.size - 1) :: roots ss (start + s.size)).Perm
        ((childrenOf (s.layout start) ++ [start + s.size - 1]) ++
          (childrenOf (layoutAll ss (start + s.size)) ++ roots ss (start + s.size))) := by
      simp only [List.append_assoc, List.singleton_append]
      exact List.perm_middle.append_left _
    rw [layoutAll, childrenOf_append, roots, sizeAll, range'_split s.size_pos]
    exact moved.trans ((first.append_right _).append rest)

end

/-! ## What holds of every node -/

/-- The node at an index is the root of a sketch, and its children are the parts of the sketch, one
behind the other. -/
inductive ShownAt (es : List Arena.Entry) : Sketch → NodeId → Prop
  | node {site : Site} {kind : NodeKind} {parts : List Sketch} {id : NodeId}
      {place : NodeId → NodeId} (here : es[id]? = some ⟨kind.relabel place, site⟩)
      (ordered : ((List.range parts.length).map place).Pairwise (· < ·))
      (below : ∀ i part, parts[i]? = some part → ShownAt es part (place i)) :
      ShownAt es (.node site kind parts) id

theorem getElem?_layout_root (front back : List Arena.Entry) (site : Site) (kind : NodeKind)
    (parts : List Sketch) :
    (front ++ (node site kind parts).layout front.length ++ back)[front.length +
        (node site kind parts).size - 1]? =
      some ⟨kind.relabel fun i => (roots parts front.length).getD i 0, site⟩ := by
  have place : front.length + (sizeAll parts + 1) - 1 =
      (front ++ layoutAll parts front.length).length := by
    rw [List.length_append, length_layoutAll]
    omega
  rw [layout, size, place, ← List.append_assoc, List.append_assoc _ _ back,
    List.getElem?_append_right (Nat.le_refl _)]
  simp

mutual

theorem shownAt_layout : (s : Sketch) → ∀ front back : List Arena.Entry,
    s.ShownAt (front ++ s.layout front.length ++ back) (front.length + s.size - 1)
  | node site kind parts, front, back => by
    refine .node (getElem?_layout_root front back site kind parts) ?_ fun i part at_ => ?_
    · rw [map_range_roots]
      exact pairwise_roots ..
    · have inner := shownAt_layoutAll parts front
        ([⟨kind.relabel fun i => (roots parts front.length).getD i 0, site⟩] ++ back) at_
      simpa only [layout, List.append_assoc] using inner

/-- Each of some sketches in a row is shown where `roots` says. -/
theorem shownAt_layoutAll : (ss : List Sketch) → ∀ (front back : List Arena.Entry) {i : Nat}
    {s : Sketch}, ss[i]? = some s →
      s.ShownAt (front ++ layoutAll ss front.length ++ back) ((roots ss front.length).getD i 0)
  | [], _, _, _, _, at_ => by simp at at_
  | s :: ss, front, back, 0, t, at_ => by
    have same : s = t := Option.some.inj at_
    have inner := shownAt_layout s front (layoutAll ss (front.length + s.size) ++ back)
    rw [same] at inner ⊢
    simpa only [layoutAll, roots, List.getD_cons_zero, List.append_assoc] using inner
  | s :: ss, front, back, i + 1, t, at_ => by
    have length : (front ++ s.layout front.length).length = front.length + s.size := by
      rw [List.length_append, length_layout]
    have inner := shownAt_layoutAll ss (front ++ s.layout front.length) back (i := i) at_
    rw [length] at inner
    simpa only [layoutAll, roots, List.getD_cons_succ, List.append_assoc] using inner

end

/-- What is stored is shown where it is stored. -/
theorem shownAt_store (s : Sketch) (a : Arena) :
    s.ShownAt (s.store a).2.entries (s.store a).1 := by
  obtain ⟨id, entries⟩ := store_spec s a
  have shown := shownAt_layout s a.entries []
  rw [Arena.length_entries, List.append_nil, ← entries, ← id] at shown
  exact shown

theorem ShownAt.parts {es : List Arena.Entry} {site : Site} {kind : NodeKind}
    {parts : List Sketch} {id : NodeId} (shown : (Sketch.node site kind parts).ShownAt es id) :
    ∃ place, es[id]? = some ⟨kind.relabel place, site⟩ ∧
      ((List.range parts.length).map place).Pairwise (· < ·) ∧
      List.Forall₂ (ShownAt es) parts ((List.range parts.length).map place) := by
  cases shown with
  | @node _ _ _ _ place here ordered below =>
    refine ⟨place, here, ordered, List.forall₂_iff_get.mpr ⟨by simp, fun i bound _ => ?_⟩⟩
    simpa using below i _ (List.getElem?_eq_getElem bound)

/-- A node among others, with a kind and children that have kinds for which something holds. -/
def Local (P : NodeKind → List NodeKind → Prop) (es : List Arena.Entry) (e : Arena.Entry) : Prop :=
  ∃ kind kinds f, P kind kinds ∧ e.kind = kind.relabel f ∧
    ∀ i k, kinds[i]? = some k → ∃ e' g, es[f i]? = some e' ∧ e'.kind = k.relabel g

section

variable {P : NodeKind → List NodeKind → Prop}

mutual

theorem local_layout : (s : Sketch) → s.Everywhere P → ∀ (front back : List Arena.Entry),
    ∀ e ∈ s.layout front.length, Local P (front ++ s.layout front.length ++ back) e
  | node site kind parts, .node here below, front, back, e, mem => by
    rw [layout] at mem ⊢
    rcases List.mem_append.mp mem with mem | mem
    · have inner := local_layoutAll parts below front
        ([⟨kind.relabel fun i => (roots parts front.length).getD i 0, site⟩] ++ back) e mem
      simpa only [List.append_assoc] using inner
    · rw [List.mem_singleton.mp mem]
      refine ⟨kind, parts.map Sketch.kind, _, here, rfl, ?_⟩
      intro i k at_
      rw [List.getElem?_map, Option.map_eq_some_iff] at at_
      obtain ⟨p, at_, rfl⟩ := at_
      have shown := shownAt_layoutAll parts front
        ([⟨kind.relabel fun i => (roots parts front.length).getD i 0, site⟩] ++ back) at_
      cases shown with
      | node here => exact ⟨_, _, by simpa only [List.append_assoc] using here, rfl⟩

theorem local_layoutAll : (ss : List Sketch) → (∀ p ∈ ss, p.Everywhere P) →
    ∀ (front back : List Arena.Entry), ∀ e ∈ layoutAll ss front.length,
      Local P (front ++ layoutAll ss front.length ++ back) e
  | [], _, _, _, e, mem => by cases mem
  | s :: ss, holds, front, back, e, mem => by
    have length : (front ++ s.layout front.length).length = front.length + s.size := by
      rw [List.length_append, length_layout]
    rw [layoutAll] at mem ⊢
    rcases List.mem_append.mp mem with mem | mem
    · have inner := local_layout s (holds s List.mem_cons_self) front
        (layoutAll ss (front.length + s.size) ++ back) e mem
      simpa only [List.append_assoc] using inner
    · have inner := local_layoutAll ss (fun p mem => holds p (List.mem_cons_of_mem _ mem))
        (front ++ s.layout front.length) back e (by rw [length]; exact mem)
      rw [length] at inner
      simpa only [List.append_assoc] using inner

end

end

section

variable {P : NodeKind → Prop}

mutual

/-- What holds of the kind of every node holds of every kind in the sketch. -/
theorem everywhere_of_layout (stable : ∀ k f, P (k.relabel f) → P k) : (s : Sketch) → ∀ start,
    (∀ e ∈ s.layout start, P e.kind) → s.Everywhere fun k _ => P k
  | node site kind parts, start, holds => by
    rw [layout] at holds
    refine .node (stable kind _ (holds _ (List.mem_append_right _ List.mem_cons_self))) ?_
    exact everywhere_of_layoutAll stable parts start fun e mem =>
      holds e (List.mem_append_left _ mem)

theorem everywhere_of_layoutAll (stable : ∀ k f, P (k.relabel f) → P k) : (ss : List Sketch) →
    ∀ start, (∀ e ∈ layoutAll ss start, P e.kind) → ∀ p ∈ ss, p.Everywhere fun k _ => P k
  | [], _, _, p, mem => by cases mem
  | s :: ss, start, holds, p, mem => by
    rw [layoutAll] at holds
    rcases List.mem_cons.mp mem with same | mem
    · rw [same]
      exact everywhere_of_layout stable s start fun e mem => holds e (List.mem_append_left _ mem)
    · exact everywhere_of_layoutAll stable ss (start + s.size)
        (fun e mem => holds e (List.mem_append_right _ mem)) p mem

end

end

/-! ## The tree of a sketch -/

mutual

theorem built_store : (s : Sketch) → s.Everywhere Numbered → ∀ {a : Arena}, a.Built →
    (s.store a).2.Built
  | node site kind parts, .node here below, a, built => by
    have numbered : kind.children = List.range parts.length := by
      simpa [Numbered] using here
    obtain ⟨ids, entries⟩ := storeAll_spec parts a
    have grown : (storeAll parts a).2.size = a.size + sizeAll parts := by
      rw [← Arena.length_entries, entries, List.length_append, Arena.length_entries,
        length_layoutAll]
    have known : ∀ c : Nat,
        c ∈ (kind.relabel fun i => (roots parts a.size).getD i 0).children →
          c < (storeAll parts a).2.size := by
      intro c mem
      rw [children_relabel_roots a.size numbered] at mem
      have bounds := roots_bounds parts a.size c mem
      omega
    have last := Arena.Built.push (built_storeAll parts below built) _ site known
    simpa [store, ids] using last

theorem built_storeAll : (ss : List Sketch) → (∀ p ∈ ss, p.Everywhere Numbered) →
    ∀ {a : Arena}, a.Built → (storeAll ss a).2.Built
  | [], _, _, built => built
  | s :: ss, numbered, _, built =>
    built_storeAll ss (fun p mem => numbered p (List.mem_cons_of_mem _ mem))
      (built_store s (numbered s List.mem_cons_self) built)

end

variable (s : Sketch) (fileName : String) (text : List Char)

theorem entries_tree : (s.tree fileName text).arena.entries = s.layout 0 := by
  have spec := (store_spec s Arena.empty).2
  exact spec

theorem size_tree : (s.tree fileName text).arena.size = s.size := by
  rw [← Arena.length_entries, entries_tree, length_layout]

theorem root_tree : Nat.succ (s.tree fileName text).root = s.size := by
  have spec := (store_spec s Arena.empty).1
  have empty : Arena.empty.size = 0 := rfl
  rw [empty, Nat.zero_add] at spec
  exact spec

theorem kind?_tree (id : NodeId) :
    (s.tree fileName text).kind? id = (s.layout 0)[id]?.map Arena.Entry.kind := by
  rw [Arena.kind?_eq_entries, entries_tree]

theorem kind?_root :
    ∃ f, (s.tree fileName text).kind? (s.tree fileName text).root = some (s.kind.relabel f) := by
  have shown := shownAt_store s Arena.empty
  cases shown with
  | @node site kind parts id place here =>
    refine ⟨place, ?_⟩
    rw [Arena.kind?_eq_entries]
    exact congrArg (Option.map Arena.Entry.kind) here

theorem built_tree (numbered : s.Everywhere Numbered) : (s.tree fileName text).Built where
  arena := built_store s numbered .empty
  root := by
    have root := root_tree s fileName text
    rw [← size_tree s fileName text] at root
    exact Nat.lt_of_succ_le (Nat.le_of_eq root)

/-- What holds of every node of a sketch holds of every node of its tree. -/
theorem local_tree {P : NodeKind → List NodeKind → Prop} (holds : s.Everywhere P) {id : NodeId}
    {k : NodeKind} (found : (s.tree fileName text).kind? id = some k) :
    ∃ kind kinds f, P kind kinds ∧ k = kind.relabel f ∧
      ∀ i k', kinds[i]? = some k' →
        ∃ g, (s.tree fileName text).kind? (f i) = some (k'.relabel g) := by
  rw [kind?_tree, Option.map_eq_some_iff] at found
  obtain ⟨e, at_, rfl⟩ := found
  obtain ⟨kind, kinds, f, here, same, below⟩ :=
    local_layout s holds [] [] e (List.mem_of_getElem? at_)
  refine ⟨kind, kinds, f, here, same, ?_⟩
  intro i k' part
  obtain ⟨e', g, found, same⟩ := below i k' part
  have found : (s.layout 0)[f i]? = some e' := by simpa using found
  exact ⟨g, by rw [kind?_tree, found, ← same]; rfl⟩

end Sketch

end Dartify
