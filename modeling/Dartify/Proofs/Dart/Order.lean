import Dartify.Proofs.Dart.Course
import Dartify.Proofs.Tree.Built

/-! The order in which nodes are written: a node before its children, and these as in the source,
except that a type comes before the name that it belongs to. Main statement: a run ends with the
first node in this order that cannot be written. -/
namespace Dartify

/-- The children of a node in the order in which they are written. -/
def NodeKind.writingOrder : NodeKind → List NodeId
  | variableDeclaration name type value => type.toList ++ name :: value.toList
  | propertyDeclaration name type value => type.toList ++ name :: value.toList
  | parameter name type value _ => type.toList ++ name :: value.toList
  | functionDeclaration name typeParameters parameters returnType body =>
    returnType.toList ++ name :: typeParameters.getD [] ++ parameters ++ [body]
  | methodDeclaration name typeParameters parameters returnType body =>
    returnType.toList ++ name :: typeParameters.getD [] ++ parameters ++ [body]
  | k => k.children

/-- What a node writes in front of its children without having it as a child: a constructor the
name of its class. -/
def NodeKind.borrowed (className : Option NodeId) : NodeKind → List NodeId
  | constructor _ _ => className.toList
  | _ => []

theorem NodeKind.mem_writingOrder {k : NodeKind} {c : NodeId} :
    c ∈ k.writingOrder ↔ c ∈ k.children := by
  cases k with
  | variableDeclaration name type value => simp [writingOrder, children]; tauto
  | propertyDeclaration name type value => simp [writingOrder, children]; tauto
  | parameter name type value rest => simp [writingOrder, children]; tauto
  | functionDeclaration name typeParameters parameters returnType body =>
    simp [writingOrder, children]; tauto
  | methodDeclaration name typeParameters parameters returnType body =>
    simp [writingOrder, children]; tauto
  | _ => rfl

namespace Dart

/-! ## The order of a script -/

def Step.entered? : Step → Option NodeId
  | enter id => some id
  | _ => none

/-- The nodes that some steps enter, in order. -/
def entered (steps : List Step) : List NodeId := steps.filterMap Step.entered?

namespace Script

@[simp] theorem entered_nil : entered [] = [] := rfl

@[simp] theorem entered_enter (id : NodeId) (steps : List Step) :
    entered (.enter id :: steps) = id :: entered steps := rfl

@[simp] theorem entered_code (text : String) (steps : List Step) :
    entered (.code text :: steps) = entered steps := rfl

@[simp] theorem entered_lineFeed (steps : List Step) :
    entered (.lineFeed :: steps) = entered steps := rfl

@[simp] theorem entered_append (first rest : List Step) :
    entered (first ++ rest) = entered first ++ entered rest := List.filterMap_append

@[simp] theorem entered_each (ids : List NodeId) : entered (each ids) = ids := by
  induction ids with
  | nil => rfl
  | cons id ids ih => exact congrArg (id :: ·) ih

@[simp] theorem entered_maybe (id : Option NodeId) : entered (maybe id) = id.toList :=
  entered_each _

theorem entered_commas (ids : List NodeId) :
    entered (ids.flatMap fun i => [.code ",", .enter i]) = ids := by
  induction ids with
  | nil => rfl
  | cons id ids ih => exact congrArg (id :: ·) ih

@[simp] theorem entered_separated (ids : List NodeId) : entered (separated ids) = ids := by
  cases ids with
  | nil => rfl
  | cons id ids => rw [separated, entered_enter, entered_commas]

@[simp] theorem entered_bracketed (opening closing : String) (ids : List NodeId) :
    entered (bracketed opening closing ids) = ids := by
  simp [bracketed]

@[simp] theorem entered_typeOrVar (type : Option NodeId) :
    entered (typeOrVar type) = type.toList := by
  cases type <;> rfl

@[simp] theorem entered_introduced (word : String) (id : Option NodeId) :
    entered (introduced word id) = id.toList := by
  cases id <;> rfl

@[simp] theorem entered_typeList (ids : Option (List NodeId)) :
    entered (typeList ids) = ids.getD [] := by
  cases ids <;> simp [typeList]

theorem entered_callable {typeParameters : Option (List NodeId)} {f : Fault} {name : NodeId}
    {parameters : List NodeId} {returnType : Option NodeId} {body : NodeId} {steps : List Step}
    (ok : callable typeParameters f name parameters returnType body = .ok steps) :
    entered steps =
      returnType.toList ++ name :: typeParameters.getD [] ++ parameters ++ [body] := by
  cases typeParameters with
  | none =>
    cases ok
    simp
  | some ids => cases ok

end Script

theorem entered_script {className : Option NodeId} {k : NodeKind} {steps : List Step}
    (ok : script className k = .ok steps) :
    entered steps = k.borrowed className ++ k.writingOrder := by
  cases k with
  | functionDeclaration name typeParameters parameters returnType body =>
    exact Script.entered_callable ok
  | methodDeclaration name typeParameters parameters returnType body =>
    exact Script.entered_callable ok
  | heritageClause heritage types =>
    rw [script] at ok
    split at ok
    · cases ok
    · cases ok
      simp [NodeKind.borrowed, NodeKind.writingOrder, NodeKind.children]
  | constructor parameters body =>
    cases className with
    | none => cases ok
    | some name =>
      cases ok
      simp [NodeKind.borrowed, NodeKind.writingOrder, NodeKind.children]
  | parameter name type value rest =>
    cases rest with
    | true => cases ok
    | false =>
      cases value <;> cases ok <;> simp [NodeKind.borrowed, NodeKind.writingOrder]
  | delete expression => cases ok
  | void expression => cases ok
  | typeOf expression => cases ok
  | unsupported construct => cases ok
  | _ =>
    cases ok
    simp [NodeKind.borrowed, NodeKind.writingOrder, NodeKind.children]

end Dart

/-! ## The order of a tree -/

namespace Tree

/-- The nodes below a node, itself included, in the order in which they are written, to a given
depth. -/
def writingWithin (t : Tree) : Nat → NodeId → List NodeId
  | 0, _ => []
  | n + 1, id =>
    id ::
      match t.kind? id with
      | some k => k.writingOrder.flatMap (writingWithin t n)
      | none => []

/-- The nodes of a tree in the order in which they are written. -/
def writingOrder (t : Tree) : List NodeId := t.writingWithin t.arena.size t.root

variable {t : Tree}

theorem below_of_mem_writingWithin {n : Nat} {id b : NodeId} (listed : b ∈ t.writingWithin n id) :
    t.Below id b := by
  induction n generalizing id with
  | zero => cases listed
  | succ n ih =>
    rw [writingWithin] at listed
    rcases List.mem_cons.mp listed with rfl | listed
    · exact .refl
    · split at listed
      · rename_i k kind
        obtain ⟨c, mem, listed⟩ := List.mem_flatMap.mp listed
        exact .head ⟨k, kind, NodeKind.mem_writingOrder.mp mem⟩ (ih listed)
      · cases listed

theorem Built.mem_writingWithin (built : t.Built) {n id b : Nat} (limit : id < n)
    (way : t.Below id b) : b ∈ t.writingWithin n id := by
  induction n generalizing id with
  | zero => cases limit
  | succ n ih =>
    rw [writingWithin]
    rcases Relation.ReflTransGen.cases_head way with rfl | ⟨c, child, way⟩
    · exact List.mem_cons_self
    · have inside : c < n := Nat.lt_of_lt_of_le (built.arena.child_lt child) (Nat.le_of_lt_succ limit)
      obtain ⟨k, kind, mem⟩ := child
      rw [kind]
      exact List.mem_cons_of_mem id
        (List.mem_flatMap.mpr ⟨c, NodeKind.mem_writingOrder.mpr mem, ih inside way⟩)

/-- Every node that the root reaches is written in its turn, and no other. -/
theorem Built.mem_writingOrder_iff (built : t.Built) (id : NodeId) :
    id ∈ t.writingOrder ↔ t.Below t.root id :=
  ⟨below_of_mem_writingWithin, built.mem_writingWithin built.root⟩

/-- Every class has an identifier for its name. -/
def ClassesNamed (t : Tree) : Prop :=
  ∀ id name typeParameters heritage members,
    t.kind? id = some (.classDeclaration name typeParameters heritage members) →
      ∃ text, t.kind? name = some (.identifier text)

theorem ClassesNamed.identifier (named : t.ClassesNamed) {id name : NodeId}
    (enclosing : t.enclosingClassName id = some name) :
    ∃ text, t.kind? name = some (.identifier text) := by
  obtain ⟨a, -, found⟩ := List.exists_of_findSome?_eq_some enclosing
  split at found
  · rename_i other typeParameters heritage members kind
    cases found
    exact named a _ _ _ _ kind
  · cases found

end Tree

namespace Dart

/-! ## Where a run ends -/

/-- What a node itself ends a run with. -/
def ownStop (t : Tree) (id : NodeId) : Option Stop :=
  match t.node? id with
  | some n =>
    match script (t.enclosingClassName id) n.kind with
    | .ok _ => none
    | .error f => some (.fault ⟨f, t.location n⟩)
  | none => none

theorem findSome?_flatMap {α β γ : Type} {f : α → Option γ} {g : α → List β} {h : β → Option γ}
    {as : List α} (same : ∀ a ∈ as, f a = (g a).findSome? h) :
    as.findSome? f = (as.flatMap g).findSome? h := by
  induction as with
  | nil => rfl
  | cons a as ih =>
    rw [List.findSome?_cons, List.flatMap_cons, List.findSome?_append,
      same a List.mem_cons_self, ih fun a mem => same a (List.mem_cons_of_mem _ mem)]
    cases (g a).findSome? h <;> rfl

namespace Course

theorem stop_append (first rest : Course) :
    (first.append rest).stop = first.stop.or rest.stop := by
  unfold append
  cases stop : first.stop with
  | none => rfl
  | some s => exact stop

/-- A script ends with the first of its nodes that ends. -/
theorem stop_ofScript (inner : NodeId → Course) (steps : List Step) :
    (ofScript inner steps).stop = (entered steps).findSome? fun id => (inner id).stop := by
  induction steps with
  | nil => rfl
  | cons step steps ih =>
    cases step with
    | enter id =>
      rw [ofScript, stop_append, ih, Script.entered_enter, List.findSome?_cons]
      cases (inner id).stop <;> rfl
    | code text => exact ih
    | lineFeed => exact ih

end Course

section Stops

variable {t : Tree}

theorem course_stop_identifier {depth : Nat} {id : NodeId} {text : String}
    (kind : t.kind? id = some (.identifier text)) : (course t (depth + 1) id).stop = none := by
  obtain ⟨n, found, kind⟩ := Option.map_eq_some_iff.mp kind
  have ok : script (t.enclosingClassName id) n.kind = .ok [.code text] := by
    rw [kind]
    rfl
  simp only [course, found, ok]
  rfl

theorem stops_borrowed (named : t.ClassesNamed) {depth : Nat} {id : NodeId} {k : NodeKind}
    (deep : k.children ≠ [] → 0 < depth) :
    (k.borrowed (t.enclosingClassName id)).findSome? (fun c => (course t depth c).stop) = none := by
  rw [List.findSome?_eq_none_iff]
  intro c mem
  cases k with
  | constructor parameters body =>
    obtain ⟨text, kind⟩ := named.identifier (Option.mem_toList.mp mem)
    obtain ⟨rest, rfl⟩ := Nat.exists_eq_add_of_lt (deep (by simp [NodeKind.children]))
    rw [Nat.zero_add]
    exact course_stop_identifier kind
  | _ => cases mem

/-- A run ends with the first node in the order of writing that ends it by itself. -/
theorem course_stop (built : t.Built) (named : t.ClassesNamed) {depth n id : Nat}
    (deep : id < depth) (limit : id < n) (inside : id < t.arena.size) :
    (course t depth id).stop = (t.writingWithin n id).findSome? (ownStop t) := by
  induction depth generalizing n id with
  | zero => cases deep
  | succ depth ih =>
    cases n with
    | zero => cases limit
    | succ n =>
      obtain ⟨here, found⟩ := Tree.exists_node inside
      have kind : t.kind? id = some here.kind := by rw [Tree.kind?, found]; rfl
      have lower : ∀ c ∈ here.kind.children, c < id := fun c mem => built.arena.child_lt ⟨_, kind, mem⟩
      rw [Tree.writingWithin, kind, List.findSome?_cons]
      unfold course ownStop
      simp only [found]
      cases answer : script (t.enclosingClassName id) here.kind with
      | error f => rfl
      | ok steps =>
        have whole : ((Course.ofScript (course t depth) steps).after [.enter id]).stop =
            (Course.ofScript (course t depth) steps).stop := rfl
        have deep' : here.kind.children ≠ [] → 0 < depth := by
          intro some
          obtain ⟨c, mem⟩ := List.exists_mem_of_ne_nil _ some
          exact Nat.zero_lt_of_lt (Nat.lt_of_lt_of_le (lower c mem) (Nat.le_of_lt_succ deep))
        simp only [whole, Course.stop_ofScript, entered_script answer, List.findSome?_append,
          stops_borrowed named deep', Option.none_or]
        apply findSome?_flatMap
        intro c mem
        have below := lower c (NodeKind.mem_writingOrder.mp mem)
        exact ih (Nat.lt_of_lt_of_le below (Nat.le_of_lt_succ deep))
          (Nat.lt_of_lt_of_le below (Nat.le_of_lt_succ limit)) (Nat.lt_trans below inside)

theorem wholeCourse_stop (built : t.Built) (named : t.ClassesNamed) :
    (wholeCourse t).stop = t.writingOrder.findSome? (ownStop t) :=
  course_stop built named (Nat.lt_succ_of_lt built.root) built.root built.root

end Stops

end Dart

end Dartify
