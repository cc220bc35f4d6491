import Dartify.Proofs.Abstraction.Statements
import Dartify.Proofs.Dart.Rejection
import Dartify.Proofs.Tree.Proper
import Dartify.Program.Translation

/-! The shape of the trees of texts. Main statement: they are proper trees in which every
constructor is a member of a class, so none of them fails for its shape, and a constructor is
written under the name of its own class. -/
namespace Dartify

/-- A tree whose nodes hang together as they should. -/
structure Tree.Proper (t : Tree) : Prop where
  /-- The root was added last. -/
  last : Nat.succ t.root = t.arena.size
  file : ∃ statements marker, t.kind? t.root = some (.sourceFile statements marker)
  once : ∀ id, id < t.arena.size → id ≠ t.root → ∃! place, t.Place id place
  top : ∀ place, ¬ t.Place t.root place
  named : t.ClassesNamed
  owned : ∀ id parameters body, t.kind? id = some (.constructor parameters body) →
    ∃ parent name typeParameters heritage members, t.parent? id = some parent ∧
      t.kind? parent = some (.classDeclaration name typeParameters heritage members) ∧
      id ∈ members

namespace NodeKind

theorem exists_of_members {k : NodeKind} {i : NodeId} (mem : i ∈ k.members) :
    ∃ name typeParameters heritage members,
      k = .classDeclaration name typeParameters heritage members ∧ i ∈ members := by
  cases k with
  | classDeclaration name typeParameters heritage members =>
    exact ⟨name, typeParameters, heritage, members, rfl, mem⟩
  | _ => cases mem

theorem isConstructor_relabel (f : NodeId → NodeId) (k : NodeKind) :
    (k.relabel f).isConstructor = k.isConstructor := by
  cases k <;> rfl

end NodeKind

namespace Sketch

variable (s : Sketch) (fileName : String) (text : List Char) (fits : s.Everywhere Fits)

include fits

theorem numbered_of_fits : s.Everywhere Numbered := fits.imp fun _ _ h => h.numbered

theorem classesNamed_tree : (s.tree fileName text).ClassesNamed := by
  intro id name typeParameters heritage members found
  obtain ⟨kind, kinds, f, here, same, below⟩ := local_tree s fileName text fits found
  cases kind with
  | classDeclaration n t h m =>
    cases same
    obtain ⟨text, at_⟩ := here.named n t h m rfl
    obtain ⟨g, kind⟩ := below n _ at_
    exact ⟨text, kind⟩
  | _ => cases same

/-- A constructor stands among the members of a class. -/
theorem member_tree {id p : NodeId} {j : Nat} {parameters : List NodeId} {body : NodeId}
    (kind : (s.tree fileName text).kind? id = some (.constructor parameters body))
    (place : (s.tree fileName text).Place id (p, j)) :
    ∃ name typeParameters heritage members,
      (s.tree fileName text).kind? p =
        some (.classDeclaration name typeParameters heritage members) ∧ id ∈ members := by
  obtain ⟨k, found, at_⟩ := place
  obtain ⟨kind', kinds, f, here, rfl, below⟩ := local_tree s fileName text fits found
  rw [NodeKind.children_relabel, here.numbered, List.getElem?_map, Option.map_eq_some_iff] at at_
  obtain ⟨i, at_, rfl⟩ := at_
  obtain ⟨bound, same⟩ := List.getElem?_eq_some_iff.mp at_
  rw [List.getElem_range] at same
  subst same
  rw [List.length_range] at bound
  have part := List.getElem?_eq_getElem bound
  obtain ⟨g, kind''⟩ := below j _ part
  rw [kind, Option.some.injEq] at kind''
  have constructor : kinds[j].isConstructor = true := by
    rw [← NodeKind.isConstructor_relabel g, ← kind'']
    rfl
  obtain ⟨name, typeParameters, heritage, members, rfl, mem⟩ :=
    NodeKind.exists_of_members (here.owned j _ part constructor)
  exact ⟨_, _, _, _, found, List.mem_map_of_mem mem⟩

theorem proper_tree (file : ∃ statements marker, s.kind = .sourceFile statements marker) :
    (s.tree fileName text).Proper := by
  have numbered := numbered_of_fits s fits
  have built := built_tree s fileName text numbered
  have last : Nat.succ (s.tree fileName text).root = (s.tree fileName text).arena.size :=
    (root_tree s fileName text).trans (size_tree s fileName text).symm
  have root : ∃ statements marker, (s.tree fileName text).kind? (s.tree fileName text).root =
      some (.sourceFile statements marker) := by
    obtain ⟨statements, marker, same⟩ := file
    obtain ⟨f, kind⟩ := kind?_root s fileName text
    rw [same] at kind
    exact ⟨_, _, kind⟩
  have once : ∀ id, id < (s.tree fileName text).arena.size → id ≠ (s.tree fileName text).root →
      ∃! place, (s.tree fileName text).Place id place := by
    intro id inside other
    rw [← last] at inside
    refine existsUnique_place s fileName text numbered ?_
    rw [← root_tree s fileName text]
    exact Nat.succ_lt_succ (Nat.lt_of_le_of_ne (Nat.le_of_lt_succ inside) other)
  refine ⟨last, root, once, ?_, classesNamed_tree s fileName text fits, ?_⟩
  · intro place here
    have above := built.arena.child_lt here.child
    obtain ⟨k, kind, -⟩ := here
    obtain ⟨n, found, -⟩ := Option.map_eq_some_iff.mp kind
    have inside : place.1 < (s.tree fileName text).arena.size :=
      (Array.getElem?_eq_some_iff.mp found).1
    rw [← last] at inside
    exact Nat.not_lt_of_le (Nat.le_of_lt_succ inside) above
  · intro id parameters body kind
    have other : id ≠ (s.tree fileName text).root := by
      rintro rfl
      obtain ⟨_, _, rootKind⟩ := root
      rw [rootKind] at kind
      cases kind
    have inside : id < (s.tree fileName text).arena.size := by
      obtain ⟨n, found, -⟩ := Option.map_eq_some_iff.mp kind
      exact (Array.getElem?_eq_some_iff.mp found).1
    obtain ⟨⟨p, j⟩, place, unique⟩ := once id inside other
    obtain ⟨name, typeParameters, heritage, members, parentKind, mem⟩ :=
      member_tree s fileName text fits kind place
    obtain ⟨q, parent⟩ := built.arena.parent_of_child place.child
    obtain ⟨j', place'⟩ := Tree.exists_place_of_child (built.arena.child_of_parent parent)
    have same : q = p := congrArg Prod.fst (unique _ place')
    subst same
    exact ⟨q, name, typeParameters, heritage, members, parent, parentKind, mem⟩

end Sketch

theorem Tree.proper_ofText {fileName : String} {text : List Char} {tree : Tree}
    (ok : Tree.ofText fileName text = .ok tree) : tree.Proper ∧ tree.Built := by
  obtain ⟨c, s, here, rest, -, -, -, rfl, isFile⟩ := Tree.exists_sketch_of_ofText ok
  exact ⟨s.proper_tree fileName text isFile.fits isFile.file,
    s.built_tree fileName text (s.numbered_of_fits isFile.fits)⟩

namespace Dart

variable {t : Tree}

/-- The innermost class around a node whose parent is a class. -/
theorem enclosingClassName_of_parent {id parent name : NodeId}
    {typeParameters : Option (List NodeId)} {heritage members : List NodeId}
    (parent? : t.parent? id = some parent)
    (kind : t.kind? parent = some (.classDeclaration name typeParameters heritage members)) :
    t.enclosingClassName id = some name := by
  obtain ⟨n, found, -⟩ := Option.bind_eq_some_iff.mp parent?
  have some : 0 < t.arena.size :=
    Nat.lt_of_le_of_lt (Nat.zero_le _) (Array.getElem?_eq_some_iff.mp found).1
  obtain ⟨size, same⟩ := Nat.exists_eq_succ_of_ne_zero (Nat.ne_of_gt some)
  rw [Tree.enclosingClassName, Tree.ancestors, same, Tree.ancestorsWithin, parent?,
    List.findSome?_cons, kind]

/-- A constructor is written as a name, its parameters and its body, after the comments of the
constructor and of the name. -/
def WrittenUnder (t : Tree) (id name : NodeId) (parameters : List NodeId) (body : NodeId) : Prop :=
  ∃ n m spelling, t.node? id = some n ∧ t.node? name = some m ∧ m.kind = .identifier spelling ∧
    ∀ depth, visit t (depth + 2) id = (do
      (t.leadingComments n).forM (Emit.comment t.text)
      (t.leadingComments m).forM (Emit.comment t.text)
      Emit.code spelling
      Emit.bracketed (visit t (depth + 1)) "(" ")" parameters
      visit t (depth + 1) body)

theorem writtenUnder_of_parent {id parent name body : NodeId} {parameters : List NodeId}
    {typeParameters : Option (List NodeId)} {heritage members : List NodeId} {spelling : String}
    (kind : t.kind? id = some (.constructor parameters body))
    (parent? : t.parent? id = some parent)
    (owner : t.kind? parent = some (.classDeclaration name typeParameters heritage members))
    (named : t.kind? name = some (.identifier spelling)) :
    WrittenUnder t id name parameters body := by
  obtain ⟨n, found, kind⟩ := Option.map_eq_some_iff.mp kind
  obtain ⟨m, foundName, spelled⟩ := Option.map_eq_some_iff.mp named
  have enclosing := enclosingClassName_of_parent parent? owner
  refine ⟨n, m, spelling, found, foundName, spelled, ?_⟩
  intro depth
  have name : visit t (depth + 1) name = (do
      (t.leadingComments m).forM (Emit.comment t.text)
      Emit.code spelling) := by
    simp [visit, foundName, Emit.node, spelled]
  rw [visit, found]
  simp only [Emit.node, kind, enclosing, name, bind_assoc]

theorem not_structural_of_rejected (proper : t.Proper) {id : NodeId} {f : Fault}
    (rejected : Rejected t id f) : f.category = .unsupportedConstruct := by
  cases category : f.category with
  | unsupportedConstruct => rfl
  | structuralInvariant =>
    -- Only a constructor outside of classes is a fault of shape, and there is none.
    obtain ⟨k, kind, rejects⟩ := rejected
    cases rejects with
    | outsideClass parameters body outside =>
      obtain ⟨p, name, ts, h, ms, parent, owner, -⟩ := proper.owned id parameters body kind
      exact absurd owner (outside p (.single parent) name ts h ms)
    | _ => cases category

/-- The tree of a text is proper, writing it never fails for its shape, and each of its
constructors is written under the name of the class that it is a member of. -/
theorem ofText_constructors {fileName text : String} {tree : Tree}
    (ok : Tree.ofText fileName text.toList = .ok tree) :
    tree.Proper ∧
    (∀ stop, translateText fileName text = .error (.write stop) →
      ∃ e, stop = .fault e ∧ e.fault.category = .unsupportedConstruct) ∧
    ∀ id parameters body, tree.kind? id = some (.constructor parameters body) →
      ∃ parent name typeParameters heritage members, tree.parent? id = some parent ∧
        tree.kind? parent = some (.classDeclaration name typeParameters heritage members) ∧
        id ∈ members ∧ WrittenUnder tree id name parameters body := by
  obtain ⟨proper, built⟩ := Tree.proper_ofText ok
  refine ⟨proper, ?_, ?_⟩
  · intro stop failed
    have emitted : emit tree = .error stop := by
      unfold translateText at failed
      simp only [ok] at failed
      cases answer : emit tree with
      | ok pieces =>
        rw [answer] at failed
        cases failed
      | error stop' =>
        rw [answer] at failed
        cases failed
        rfl
    rw [emit_eq_error_iff, wholeCourse_stop built proper.named] at emitted
    obtain ⟨id, -, own⟩ := List.exists_of_findSome?_eq_some emitted
    obtain ⟨n, f, -, rejected, rfl⟩ := (ownStop_eq_some_iff built).mp own
    exact ⟨_, rfl, not_structural_of_rejected proper rejected⟩
  · intro id parameters body kind
    obtain ⟨parent, name, typeParameters, heritage, members, parent?, owner, mem⟩ :=
      proper.owned id parameters body kind
    obtain ⟨spelling, named⟩ := proper.named parent name typeParameters heritage members owner
    exact ⟨parent, name, typeParameters, heritage, members, parent?, owner, mem,
      writtenUnder_of_parent kind parent? owner named⟩

/-- A class inside a method of another, both with a constructor. -/
def nested : String :=
  "class A\x7bm()\x7bclass B\x7bconstructor()\x7b\x7d\x7d\x7dconstructor()\x7b\x7d\x7d"

/-- The inner constructor is written under the name of the inner class, and the other under that of
the outer. -/
theorem ofText_nested :
    ∃ tree, Tree.ofText "a.ts" nested.toList = .ok tree ∧ tree.Proper ∧
      tree.kind? 2 = some (.identifier "B") ∧ WrittenUnder tree 4 2 [] 3 ∧
      tree.kind? 0 = some (.identifier "A") ∧ WrittenUnder tree 9 0 [] 8 := by
  have read : (Tree.ofText "a.ts" nested.toList).toOption.any (fun tree =>
      tree.kind? 2 = some (.identifier "B") ∧ tree.kind? 4 = some (.constructor [] 3) ∧
        tree.parent? 4 = some 5 ∧ tree.kind? 5 = some (.classDeclaration 2 none [] [4]) ∧
        tree.kind? 0 = some (.identifier "A") ∧ tree.kind? 9 = some (.constructor [] 8) ∧
        tree.parent? 9 = some 10 ∧ tree.kind? 10 = some (.classDeclaration 0 none [] [7, 9])) =
      true := by
    decide +kernel
  obtain ⟨tree, ok, facts⟩ := exists_ok_of_any read
  obtain ⟨inner, kind, parent, owner, outer, kind', parent', owner'⟩ := of_decide_eq_true facts
  obtain ⟨proper, -, written⟩ := ofText_constructors ok
  obtain ⟨p, name, _, _, _, parent?, owner?, -, under⟩ := written 4 [] 3 kind
  obtain ⟨p', name', _, _, _, parent?', owner?', -, under'⟩ := written 9 [] 8 kind'
  rw [parent] at parent?
  cases parent?
  rw [owner] at owner?
  cases owner?
  rw [parent'] at parent?'
  cases parent?'
  rw [owner'] at owner?'
  cases owner?'
  exact ⟨tree, ok, proper, inner, under, outer, under'⟩

end Dart

end Dartify
