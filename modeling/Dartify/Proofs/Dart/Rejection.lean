import Dartify.Proofs.Dart.Order

/-! When writing fails, and how. Main statement: a tree is written if no node that its root reaches
is rejected; otherwise the first rejected node, in the order of writing, is reported with its own
position. -/
namespace Dartify

namespace Tree

theorem Built.enclosingClassName_eq_none_iff {t : Tree} (built : t.Built) (id : NodeId) :
    t.enclosingClassName id = none ↔
      ∀ a, t.Above id a → ∀ name typeParameters heritage members,
        t.kind? a ≠ some (.classDeclaration name typeParameters heritage members) := by
  rw [enclosingClassName, List.findSome?_eq_none_iff]
  constructor
  · intro none a above name typeParameters heritage members kind
    have here := none a ((built.arena.mem_ancestors_iff id a).mpr above)
    rw [kind] at here
    cases here
  · intro none a listed
    have above := (built.arena.mem_ancestors_iff id a).mp listed
    split
    · rename_i name typeParameters heritage members kind
      exact absurd kind (none a above name typeParameters heritage members)
    · rfl

end Tree

namespace Dart

/-- The nodes that have no counterpart where they stand, each with the fault that it is. -/
inductive Rejects (t : Tree) (id : NodeId) : NodeKind → Fault → Prop
  | unsupported (construct : String) :
      Rejects t id (.unsupported construct) (.unsupportedNode construct)
  | delete (expression : NodeId) : Rejects t id (.delete expression) .deleteOperator
  | void (expression : NodeId) : Rejects t id (.void expression) .voidOperator
  | typeOf (expression : NodeId) : Rejects t id (.typeOf expression) .typeOfOperator
  /-- A list of type parameters counts even if it is empty. -/
  | genericFunction (name : NodeId) (typeParameters parameters : List NodeId)
      (returnType : Option NodeId) (body : NodeId) :
      Rejects t id (.functionDeclaration name (some typeParameters) parameters returnType body)
        .genericFunction
  | genericMethod (name : NodeId) (typeParameters parameters : List NodeId)
      (returnType : Option NodeId) (body : NodeId) :
      Rejects t id (.methodDeclaration name (some typeParameters) parameters returnType body)
        .genericMethod
  | multipleInheritance (types : List NodeId) (several : 1 < types.length) :
      Rejects t id (.heritageClause .extends types) .multipleInheritance
  | restParameter (name : NodeId) (type value : Option NodeId) :
      Rejects t id (.parameter name type value true) .restParameter
  | outsideClass (parameters : List NodeId) (body : NodeId)
      (outside : ∀ a, t.Above id a → ∀ name typeParameters heritage members,
        t.kind? a ≠ some (.classDeclaration name typeParameters heritage members)) :
      Rejects t id (.constructor parameters body) .noEnclosingClass

/-- A node of a tree is rejected for a fault. -/
def Rejected (t : Tree) (id : NodeId) (f : Fault) : Prop :=
  ∃ k, t.kind? id = some k ∧ Rejects t id k f

variable {t : Tree}

theorem script_callable_eq_error_iff {typeParameters : Option (List NodeId)} {f g : Fault}
    {name : NodeId} {parameters : List NodeId} {returnType : Option NodeId} {body : NodeId} :
    Script.callable typeParameters f name parameters returnType body = .error g ↔
      typeParameters.isSome = true ∧ f = g := by
  cases typeParameters <;> simp [Script.callable]

/-- Exactly the rejected nodes have no script. -/
theorem script_eq_error_iff (built : t.Built) {id : NodeId} {k : NodeKind} {f : Fault} :
    script (t.enclosingClassName id) k = .error f ↔ Rejects t id k f := by
  constructor
  · intro failed
    cases k with
    | functionDeclaration name typeParameters parameters returnType body =>
      obtain ⟨generic, rfl⟩ := script_callable_eq_error_iff.mp failed
      obtain ⟨ids, rfl⟩ := Option.isSome_iff_exists.mp generic
      exact .genericFunction name ids parameters returnType body
    | methodDeclaration name typeParameters parameters returnType body =>
      obtain ⟨generic, rfl⟩ := script_callable_eq_error_iff.mp failed
      obtain ⟨ids, rfl⟩ := Option.isSome_iff_exists.mp generic
      exact .genericMethod name ids parameters returnType body
    | heritageClause heritage types =>
      rw [script] at failed
      split at failed
      · rename_i several
        cases failed
        rw [several.1]
        exact .multipleInheritance types several.2
      · cases failed
    | constructor parameters body =>
      cases enclosing : t.enclosingClassName id with
      | none =>
        rw [enclosing] at failed
        cases failed
        exact .outsideClass parameters body
          ((built.enclosingClassName_eq_none_iff id).mp enclosing)
      | some name =>
        rw [enclosing] at failed
        cases failed
    | parameter name type value rest =>
      cases rest with
      | true =>
        cases failed
        exact .restParameter name type value
      | false => cases value <;> cases failed
    | delete expression =>
      cases failed
      exact .delete expression
    | void expression =>
      cases failed
      exact .void expression
    | typeOf expression =>
      cases failed
      exact .typeOf expression
    | unsupported construct =>
      cases failed
      exact .unsupported construct
    | _ => cases failed
  · intro rejects
    cases rejects with
    | multipleInheritance types several => exact if_pos ⟨rfl, several⟩
    | outsideClass parameters body outside =>
      rw [(built.enclosingClassName_eq_none_iff id).mpr outside]
      rfl
    | _ => rfl

theorem ownStop_eq_some_iff (built : t.Built) {id : NodeId} {stop : Stop} :
    ownStop t id = some stop ↔
      ∃ n f, t.node? id = some n ∧ Rejected t id f ∧ stop = .fault ⟨f, t.location n⟩ := by
  unfold ownStop
  cases found : t.node? id with
  | none => simp
  | some n =>
    have kind : t.kind? id = some n.kind := by rw [Tree.kind?, found]; rfl
    have rejected : ∀ f, Rejected t id f ↔ script (t.enclosingClassName id) n.kind = .error f := by
      intro f
      rw [Rejected, kind, script_eq_error_iff built]
      simp
    simp only [rejected]
    cases script (t.enclosingClassName id) n.kind with
    | ok steps => simp
    | error f => simp [eq_comm]

theorem ownStop_eq_none_iff (built : t.Built) {id : NodeId} :
    ownStop t id = none ↔ ∀ f, ¬ Rejected t id f := by
  rw [Option.eq_none_iff_forall_ne_some]
  constructor
  · intro none f rejected
    obtain ⟨k, kind, rejects⟩ := rejected
    obtain ⟨n, found, -⟩ := Option.map_eq_some_iff.mp kind
    exact none _ ((ownStop_eq_some_iff built).mpr ⟨n, f, found, ⟨k, kind, rejects⟩, rfl⟩)
  · intro accepted stop stops
    obtain ⟨n, f, -, rejected, -⟩ := (ownStop_eq_some_iff built).mp stops
    exact accepted f rejected

/-- Only a constructor in no class is a fault in the shape of the tree. -/
theorem Rejected.structural_iff {id : NodeId} {f : Fault} (rejected : Rejected t id f) :
    f.category = .structuralInvariant ↔
      ∃ parameters body, t.kind? id = some (.constructor parameters body) := by
  obtain ⟨k, kind, rejects⟩ := rejected
  rw [kind]
  cases rejects <;> simp [Fault.category]

/-- A tree is written exactly if no node that its root reaches is rejected. Otherwise it fails at
the first rejected node in the order of writing, for the fault of that node and with its position;
the fault is one of shape exactly if the node is a constructor. -/
theorem emit_first_rejected (built : t.Built) (named : t.ClassesNamed) :
    ((∃ pieces, emit t = .ok pieces) ↔ ∀ id, t.Below t.root id → ∀ f, ¬ Rejected t id f) ∧
    ∀ stop, emit t = .error stop ↔
      ∃ front id back n f, t.writingOrder = front ++ id :: back ∧
        (∀ i ∈ front, ∀ g, ¬ Rejected t i g) ∧ t.node? id = some n ∧ Rejected t id f ∧
        stop = .fault ⟨f, t.location n⟩ ∧
        (f.category = .structuralInvariant ↔
          ∃ parameters body, t.kind? id = some (.constructor parameters body)) := by
  have stops := wholeCourse_stop built named
  constructor
  · have done : (∃ pieces, emit t = .ok pieces) ↔ (wholeCourse t).stop = none := by
      simp [emit_eq_ok_iff]
    rw [done, stops, List.findSome?_eq_none_iff]
    simp only [built.mem_writingOrder_iff, ownStop_eq_none_iff built]
  · intro stop
    rw [emit_eq_error_iff, stops, List.findSome?_eq_some_iff]
    constructor
    · rintro ⟨front, id, back, split, own, before⟩
      obtain ⟨n, f, found, rejected, rfl⟩ := (ownStop_eq_some_iff built).mp own
      exact ⟨front, id, back, n, f, split,
        fun i mem => (ownStop_eq_none_iff built).mp (before i mem), found, rejected, rfl,
        rejected.structural_iff⟩
    · rintro ⟨front, id, back, n, f, split, before, found, rejected, rfl, -⟩
      exact ⟨front, id, back, split,
        (ownStop_eq_some_iff built).mpr ⟨n, f, found, rejected, rfl⟩,
        fun i mem => (ownStop_eq_none_iff built).mpr (before i mem)⟩

/-- A variable whose name and whose type have no counterpart. -/
def patterned : Tree :=
  ⟨"a.ts", [],
    ((Arena.empty.push (.unsupported "array_pattern") ⟨4, 7, 3, 0, 4⟩).push
      (.unsupported "union_type") ⟨9, 14, 8, 0, 9⟩).push
      (.variableDeclaration 0 (some 1) none) ⟨4, 14, 3, 0, 4⟩, 2⟩

/-- The type is reported, since it is written before the name. -/
theorem emit_patterned :
    patterned.Built ∧ patterned.ClassesNamed ∧
      emit patterned = .error (.fault ⟨.unsupportedNode "union_type", ⟨"a.ts", 0, 9⟩⟩) := by
  have built : patterned.Built := by
    refine ⟨.push (.push (.push .empty _ _ ?_) _ _ ?_) _ _ ?_, ?_⟩ <;> decide
  have named : patterned.ClassesNamed := by
    intro id name typeParameters heritage members kind
    match id with
    | 0 => cases kind
    | 1 => cases kind
    | 2 => cases kind
    | n + 3 => cases kind
  have accepted : ∀ g, ¬ Rejected patterned 2 g := by
    rintro g ⟨k, kind, rejects⟩
    cases kind
    cases rejects
  have rejected : Rejected patterned 1 (.unsupportedNode "union_type") :=
    ⟨_, rfl, .unsupported "union_type"⟩
  refine ⟨built, named, ((emit_first_rejected built named).2 _).mpr
    ⟨[2], 1, [0], ⟨.unsupported "union_type", ⟨9, 14, 8, 0, 9⟩, some 2⟩, _, rfl, ?_, rfl, rejected,
      rfl, rejected.structural_iff⟩⟩
  intro i mem
  rw [List.mem_singleton.mp mem]
  exact accepted

end Dart

end Dartify
