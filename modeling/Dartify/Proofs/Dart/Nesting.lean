import Dartify.Proofs.Dart.Order
import Dartify.Proofs.Tree.Parents

/-! How deep visits nest. A visit goes on to children, which have smaller indices, and a constructor
also to the name of the class around it, which may have a greater one; but where such a name has no
children, its visit goes on to no other node. So what can still nest inside a visit is bounded by
the index of its node. Main statement: as many levels as there are nodes, and one more, are as good
as any number of levels. -/
namespace Dartify

/-- The name of a class has no children; so it is no constructor either, which has a body. -/
def Tree.ClassNamesBare (t : Tree) : Prop :=
  ∀ id name typeParameters heritage members,
    t.kind? id = some (.classDeclaration name typeParameters heritage members) →
      ∀ k, t.kind? name = some k → k.children = []

theorem Tree.ClassNamesBare.children_eq_nil {t : Tree} (bare : t.ClassNamesBare)
    {id name : NodeId} (enclosing : t.enclosingClassName id = some name) {k : NodeKind}
    (kind : t.kind? name = some k) : k.children = [] := by
  obtain ⟨a, -, found⟩ := List.exists_of_findSome?_eq_some enclosing
  split at found
  · rename_i other typeParameters heritage members named
    cases found
    exact bare a _ _ _ _ named k kind
  · cases found

namespace Dart

/-- Visiting a node goes on to another one. -/
def Calls (t : Tree) (id called : NodeId) : Prop :=
  ∃ n steps, t.node? id = some n ∧ script (t.enclosingClassName id) n.kind = .ok steps ∧
    .enter called ∈ steps

/-- How many visits can nest inside a visit of a node, at most. -/
def room (t : Tree) (id : NodeId) : Nat :=
  match t.kind? id with
  | some k => if k.children = [] then 0 else id + 1
  | none => 0

theorem mem_entered {id : NodeId} {steps : List Step} : id ∈ entered steps ↔ .enter id ∈ steps := by
  rw [entered, List.mem_filterMap]
  constructor
  · rintro ⟨step, mem, is⟩
    cases step <;> cases is
    exact mem
  · exact fun mem => ⟨_, mem, rfl⟩

variable {t : Tree}

theorem room_bare {id : NodeId} (bare : ∀ k, t.kind? id = some k → k.children = []) :
    room t id = 0 := by
  unfold room
  split
  · rename_i k kind
    rw [if_pos (bare k kind)]
  · rfl

theorem room_le (id : NodeId) : room t id ≤ id + 1 := by
  unfold room
  split
  · split <;> omega
  · omega

theorem room_of_child {id c : NodeId} (child : t.Child id c) : room t id = id + 1 := by
  obtain ⟨k, kind, mem⟩ := child
  rw [room, kind]
  exact if_neg (List.ne_nil_of_mem mem)

/-- A visit leaves less room to those that it goes on to. -/
theorem Calls.room_lt (built : t.arena.Built) (bare : t.ClassNamesBare) {id c : NodeId}
    (calls : Calls t id c) : room t c < room t id := by
  obtain ⟨n, steps, found, ok, mem⟩ := calls
  have kind : t.kind? id = some n.kind := Option.map_eq_some_iff.mpr ⟨n, found, rfl⟩
  rw [← mem_entered, entered_script ok, List.mem_append, NodeKind.mem_writingOrder] at mem
  rcases mem with borrowed | child
  · cases constructed : n.kind with
    | constructor parameters body =>
      rw [constructed] at borrowed kind
      have named := Option.mem_toList.mp borrowed
      have whole : t.Child id body := ⟨_, kind, by simp [NodeKind.children]⟩
      rw [room_bare fun k => bare.children_eq_nil named, room_of_child whole]
      exact Nat.succ_pos id
    | _ =>
      rw [constructed] at borrowed
      cases borrowed
  · have child : t.Child id c := ⟨n.kind, kind, child⟩
    have lower := built.child_lt child
    have le : room t c ≤ c + 1 := room_le c
    rw [room_of_child child]
    omega

/-- A chain of nested visits is no longer than the room of its first node. -/
theorem length_le_room (built : t.arena.Built) (bare : t.ClassNamesBare) {id : NodeId}
    {ids : List NodeId} (chain : List.IsChain (Calls t) (id :: ids)) :
    (id :: ids).length ≤ room t id + 1 := by
  induction ids generalizing id with
  | nil => exact Nat.le_add_left _ _
  | cons c ids ih =>
    obtain ⟨calls, rest⟩ := List.isChain_cons_cons.mp chain
    have less := calls.room_lt built bare
    have inner := ih rest
    simp only [List.length_cons] at inner ⊢
    omega

theorem room_root_le (t : Tree) : room t t.root ≤ t.arena.size := by
  by_cases inside : t.root < t.arena.size
  · exact Nat.le_trans (room_le t.root) inside
  · have outside : t.node? t.root = none :=
      Array.getElem?_eq_none (Nat.le_of_not_lt inside)
    rw [room, Tree.kind?, outside]
    exact Nat.zero_le _

/-! ## More levels change nothing -/

theorem Course.ofScript_congr {inner inner' : NodeId → Course} {steps : List Step}
    (same : ∀ id, .enter id ∈ steps → inner' id = inner id) :
    ofScript inner' steps = ofScript inner steps := by
  induction steps with
  | nil => rfl
  | cons step steps ih =>
    have rest := ih fun id mem => same id (List.mem_cons_of_mem _ mem)
    cases step with
    | enter id => rw [ofScript, ofScript, rest, same id List.mem_cons_self]
    | code text => rw [ofScript, ofScript, rest]
    | lineFeed => rw [ofScript, ofScript, rest]

/-- Where there are more levels than room, a visit does not nest too deep, and still more levels
lead to the same course. -/
theorem course_settled (built : t.arena.Built) (bare : t.ClassNamesBare) {depth more : Nat}
    {id : NodeId} (enough : room t id < depth) (le : depth ≤ more) :
    course t more id = course t depth id ∧ (course t depth id).stop ≠ some .depth := by
  induction depth generalizing more id with
  | zero => cases enough
  | succ depth ih =>
    obtain ⟨more, rfl⟩ : ∃ k, more = k + 1 := ⟨more - 1, by omega⟩
    unfold course
    cases found : t.node? id with
    | none => exact ⟨rfl, by rintro ⟨⟩⟩
    | some n =>
      cases ok : script (t.enclosingClassName id) n.kind with
      | error f => exact ⟨by simp only [ok], by simp [ok, Course.after, Course.broken]⟩
      | ok steps =>
        have inner : ∀ c, .enter c ∈ steps →
            course t more c = course t depth c ∧ (course t depth c).stop ≠ some .depth := by
          intro c mem
          have calls : Calls t id c := ⟨n, steps, found, ok, mem⟩
          have less := calls.room_lt built bare
          exact ih (by omega) (by omega)
        simp only [ok]
        constructor
        · rw [Course.ofScript_congr fun c mem => (inner c mem).1]
        · intro deep
          have deep : (Course.ofScript (course t depth) steps).stop = some .depth := deep
          rw [Course.stop_ofScript] at deep
          obtain ⟨c, mem, stopped⟩ := List.exists_of_findSome?_eq_some deep
          exact (inner c (mem_entered.mp mem)).2 stopped

/-- Writing a tree ends, from every root: visits nest at most as deep as there are nodes, and one
level more, and a limit at that level or behind it is never met. -/
theorem visit_ends (built : t.arena.Built) (bare : t.ClassNamesBare) :
    (∀ ids, List.IsChain (Calls t) (t.root :: ids) →
        (t.root :: ids).length ≤ t.arena.size + 1) ∧
      (∀ depth, t.arena.size + 1 ≤ depth →
        visit t depth t.root = visit t (t.arena.size + 1) t.root ∧
          ∀ d, (outcome (visit t depth t.root) d).1 ≠ .error .depth) ∧
      (∀ id, t.WayUp id (t.ancestors id)) := by
  have enough := room_root_le t
  refine ⟨fun ids chain => ?_, fun depth deep => ?_, built.wayUp_ancestors⟩
  · have bound := length_le_room built bare chain
    omega
  · obtain ⟨same, ends⟩ := course_settled built bare (Nat.lt_succ_of_le enough) deep
    have taken := Course.taken_visit t depth t.root
    rw [same] at taken
    constructor
    · funext d
      exact (taken d).trans (Course.taken_visit t (t.arena.size + 1) t.root d).symm
    · intro d
      rw [taken d]
      unfold Course.answer
      split
      · nofun
      · rename_i stop stopped
        rintro ⟨⟩
        exact ends stopped

/-- A class with two constructors that share their body, and the name of the class in it. -/
def sharingClass : Tree where
  fileName := "a.ts"
  text := []
  arena :=
    let site : Site := ⟨0, 0, 0, 0, 0⟩
    Arena.empty.push (.identifier "A") site
      |>.push (.expressionStatement 0) site
      |>.push (.block [1, 1]) site
      |>.push (.constructor [] 2) site
      |>.push (.constructor [] 2) site
      |>.push (.classDeclaration 0 none [] [3, 4]) site
  root := 5

theorem visit_ends_sharingClass :
    sharingClass.arena.Built ∧ sharingClass.ClassNamesBare ∧ Calls sharingClass 3 0 ∧
      List.IsChain (Calls sharingClass) [5, 4, 2, 1, 0] ∧ [5, 4, 2, 1, 0].length ≤ 7 ∧
      visit sharingClass 100 5 = visit sharingClass 7 5 := by
  have built : sharingClass.arena.Built := by
    iterate 6 refine .push ?_ _ _ (by decide)
    exact .empty
  have bare : sharingClass.ClassNamesBare := by
    intro id name typeParameters heritage members kind
    obtain ⟨n, found, -⟩ := Option.map_eq_some_iff.mp kind
    have inside : id < 6 := (Array.getElem?_eq_some_iff.mp found).1
    have only : ∀ i : Fin 6, sharingClass.kind? i = some (.classDeclaration 0 none [] [3, 4]) ∨
        (sharingClass.kind? i).all (·.name ≠ "ClassDeclaration") := by
      decide
    rcases only ⟨id, inside⟩ with same | other
    · rw [kind] at same
      cases same
      rintro k ⟨⟩
      rfl
    · simp [kind, NodeKind.name] at other
  have calls : ∀ {id c : NodeId} {n : Node} {steps : List Step}, sharingClass.node? id = some n →
      script (sharingClass.enclosingClassName id) n.kind = .ok steps → .enter c ∈ steps →
        Calls sharingClass id c :=
    fun found ok mem => ⟨_, _, found, ok, mem⟩
  have chain : List.IsChain (Calls sharingClass) [5, 4, 2, 1, 0] := by
    simp only [List.isChain_cons_cons, List.isChain_singleton, and_true]
    refine ⟨calls rfl rfl ?_, calls rfl rfl ?_, calls rfl rfl ?_, calls rfl rfl ?_⟩ <;> decide
  obtain ⟨nested, same, -⟩ := visit_ends built bare
  exact ⟨built, bare, calls rfl rfl (by decide), chain, nested [4, 2, 1, 0] chain,
    (same 100 (by decide)).1⟩

end Dart

end Dartify
