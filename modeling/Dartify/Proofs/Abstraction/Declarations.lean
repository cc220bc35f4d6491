import Dartify.Abstraction.Declarations
import Dartify.Proofs.Abstraction.Types

/-! What variables and functions are read as, given that statements are read rightly. -/
namespace Dartify.Abstraction

open Syntax Sketch Filling

variable {c : Concrete} {s : Sketch} {ss : List Sketch} {j k : Construct}
  {statement : Concrete → Reading Sketch}

/-! ## Names with a type and a value -/

theorem collects_bound (make : NodeId → Option NodeId → Option NodeId → NodeKind)
    (name : Sketch) (type value : Option Sketch)
    (children : ∀ n t v, (make n t v).children = n :: t.toList ++ v.toList)
    (plain : ∀ n t v, (make n t v).isPlain = true) :
    Collects (do return make (← one name) (← Filling.optional type) (← Filling.optional value))
      (name :: type.toList ++ value.toList) where
  parts := by
    simp only [run_bind, run_one, run_optional, run_pure]
    rfl
  numbered := by
    simp only [run_bind, run_one, run_optional, run_pure, children]
    cases type <;> cases value <;> rfl
  plain := plain _ _ _

/-- A name behind decorators, with a type and a value behind it. -/
theorem bound_parts (front : List Concrete) (formed : c.WellFormed) (loop : k ≠ .forInStatement)
    {named : Concrete} {type value : Option Concrete}
    (shape : c.nodes = front ++ named :: (type.toList ++ value.toList))
    (decorators : ∀ d ∈ front, d.is .decorator = true)
    (typed : ∀ d, type = some d → d.is .ascription = true)
    (valued : ∀ d, value = some d → d.is .initializer = true)
    (untyped : named.is .ascription = false) (unvalued : named.is .initializer = false)
    {name : Sketch} {t v : Option Sketch} (part : Part k named [name])
    (readType : annotation c = .ok t) (readValue : initializer c = .ok v) :
    Parts k c.nodes (name :: t.toList ++ v.toList) := by
  have others : ∀ j, j ≠ .decorator → front.find? (·.is j) = none := by
    intro j other
    refine List.find?_eq_none.mpr fun d mem => ?_
    simp [Concrete.is_of_construct? (Concrete.is_iff.mp (decorators d mem)), Ne.symm other]
  have foundType : c.part? .ascription = type := by
    rw [Concrete.part?_eq, shape, List.find?_append, others .ascription nofun, List.find?_cons,
      untyped, List.find?_append, Concrete.find?_toList_of_is typed,
      Concrete.find?_toList_of_is valued]
    simp
  have foundValue : c.part? .initializer = value := by
    rw [Concrete.part?_eq, shape, List.find?_append, others .initializer nofun, List.find?_cons,
      unvalued, List.find?_append, Concrete.find?_toList_of_is typed,
      Concrete.find?_toList_of_is valued]
    simp
  have partType := annotation_parts (k := k) formed readType
  have partValue := initializer_parts formed loop readValue
  rw [foundType] at partType
  rw [foundValue] at partValue
  rw [shape]
  exact (Parts.skipped fun d mem => skips_decorator (decorators d mem)).append
    (.cons part (partType.append partValue))

theorem declarator_part (formed : c.WellFormed) (known : c.construct? = some .declarator)
    (done : declarator c = .ok s) : Part k c [s] := by
  obtain ⟨named, _, shape, main, filled⟩ := Slot.exists_of_fill_one (formed.fill known rfl rfl)
  obtain ⟨type, _, rfl, typed, filled⟩ := Slot.exists_of_fill_maybe filled
  obtain ⟨value, _, rfl, valued, filled⟩ := Slot.exists_of_fill_maybe filled
  cases Slot.eq_nil_of_fill filled
  rw [List.append_nil] at shape
  obtain ⟨_, head, done⟩ := bind_ok done
  rw [shape] at head
  cases lift_ok head
  obtain ⟨name, readName, done⟩ := bind_ok done
  obtain ⟨t, readType, done⟩ := bind_ok done
  obtain ⟨v, readValue, done⟩ := bind_ok done
  have part := binding_sound (formed.of_mem_nodes (by simp [shape])) readName .declarator
  have parts := bound_parts (k := .declarator) [] formed nofun shape nofun typed valued
    (Concrete.is_of_isMain main rfl) (Concrete.is_of_isMain main rfl) part readType readValue
  exact Renders.joined (parts.whole known rfl nofun (.inl nofun))
    (sketch_joins done (collects_bound .variableDeclaration name t v (fun _ _ _ => rfl)
      fun _ _ _ => rfl))

theorem declarationList_part (formed : c.WellFormed)
    (known : c.construct? = some .variableStatement) (done : declarationList c = .ok s) :
    Part k c [s] := by
  obtain ⟨front, _, shape, all, filled⟩ := Slot.exists_of_fill_many (formed.fill known rfl rfl)
  cases Slot.eq_nil_of_fill filled
  rw [List.append_nil] at shape
  obtain ⟨declarations, read, done⟩ := bind_ok done
  have every : c.nodes.filter (·.is .declarator) = c.nodes := by
    rw [List.filter_eq_self, shape]
    exact all
  rw [every] at read
  have inside := forall₂_part (k := .variableStatement)
    (fun d mem s read => declarator_part (formed.of_mem_nodes mem)
      (Concrete.is_iff.mp (all d (shape ▸ mem))) read) (mapM_ok read)
  exact Renders.joined ((Parts.of_forall₂ inside).whole known rfl nofun (.inl nofun))
    (sketch_joins done ⟨rfl, List.range_eq_range'.symm, rfl⟩)

/-! ## Functions -/

/-- What stands behind the decorators. -/
theorem head?_undecorated {front rest : List Concrete} {d : Concrete}
    (shape : c.nodes = front ++ d :: rest) (decorators : ∀ d ∈ front, d.is .decorator = true)
    (other : d.is .decorator = false) : (undecorated c).head? = some d := by
  have skipped : front.filter (fun n => !n.is .decorator) = [] := by
    rw [List.filter_eq_nil_iff]
    intro d mem
    simp [decorators d mem]
  rw [undecorated, shape, List.filter_append, skipped, List.nil_append,
    List.filter_cons_of_pos (by simp [other])]
  rfl

theorem parameter_part (formed : c.WellFormed) (known : c.construct? = some .parameter)
    (done : parameter c = .ok s) : Part k c [s] := by
  obtain ⟨front, _, shape, decorators, filled⟩ :=
    Slot.exists_of_fill_many (formed.fill known rfl rfl)
  obtain ⟨pattern, _, rfl, main, filled⟩ := Slot.exists_of_fill_one filled
  obtain ⟨type, _, rfl, typed, filled⟩ := Slot.exists_of_fill_maybe filled
  obtain ⟨value, _, rfl, valued, filled⟩ := Slot.exists_of_fill_maybe filled
  cases Slot.eq_nil_of_fill filled
  rw [List.append_nil] at shape
  obtain ⟨_, head, done⟩ := bind_ok done
  rw [head?_undecorated shape decorators (Concrete.is_of_isMain main rfl)] at head
  cases lift_ok head
  obtain ⟨inside, found, done⟩ := bind_ok done
  obtain ⟨name, readName, done⟩ := bind_ok done
  obtain ⟨t, readType, done⟩ := bind_ok done
  obtain ⟨v, readValue, done⟩ := bind_ok done
  have formedPattern : pattern.WellFormed := formed.of_mem_nodes (by simp [shape])
  have part : Part .parameter pattern [name] := by
    have found := lift_ok found
    unfold dotless at found
    split at found
    · rename_i rest
      have rest := Concrete.is_iff.mp rest
      obtain ⟨d, _, shape, -, filled⟩ :=
        Slot.exists_of_fill_one (formedPattern.fill rest rfl rfl)
      cases Slot.eq_nil_of_fill filled
      rw [shape] at found
      cases found
      have parts : Parts .restPattern pattern.nodes [name] := by
        rw [shape]
        exact .one (binding_sound (formedPattern.of_mem_nodes (by simp [shape])) readName _)
      exact parts.whole rest rfl nofun (.inl nofun)
    · cases found
      exact binding_sound formedPattern readName _
  have parts := bound_parts (k := .parameter) front formed nofun shape decorators typed valued
    (Concrete.is_of_isMain main rfl) (Concrete.is_of_isMain main rfl) part readType readValue
  exact Renders.joined (parts.whole known rfl nofun (.inl nofun))
    (sketch_joins done (collects_bound (.parameter · · · _) name t v (fun _ _ _ => rfl)
      fun _ _ _ => rfl))

theorem parameters_parts (formed : c.WellFormed) (done : parameters c = .ok ss) :
    Parts k (c.part? .parameters).toList ss := by
  obtain ⟨list, found, read⟩ := bind_ok done
  have found := lift_ok found
  obtain ⟨mem, known⟩ := Concrete.part?_spec found
  have formed := formed.of_mem_nodes mem
  obtain ⟨front, _, shape, all, filled⟩ := Slot.exists_of_fill_many (formed.fill known rfl rfl)
  cases Slot.eq_nil_of_fill filled
  have inside := forall₂_part (k := .parameters)
    (fun d mem s read => parameter_part (formed.of_mem_nodes mem)
      (Concrete.is_iff.mp (all d (by simpa [shape] using mem))) read) (mapM_ok read)
  rw [found]
  exact .one ((Parts.of_forall₂ inside).whole known rfl nofun (.inl nofun))

theorem block_part (sound : Sound statement) (formed : c.WellFormed)
    (known : c.construct? = some .block) (done : block statement c = .ok s) : Part k c [s] := by
  obtain ⟨statements, read, done⟩ := bind_ok done
  have inside := forall₂_part (k := .block)
    (fun d mem s read => sound (formed.of_mem_nodes mem) read _) (mapM_ok read)
  exact Renders.joined ((Parts.of_forall₂ inside).whole known rfl nofun (.inl nofun))
    (sketch_joins done ⟨rfl, List.range_eq_range'.symm, rfl⟩)

theorem body_parts (sound : Sound statement) (formed : c.WellFormed)
    (done : body statement c = .ok s) : Parts k (c.part? .block).toList [s] := by
  obtain ⟨inside, found, read⟩ := bind_ok done
  have found := lift_ok found
  obtain ⟨mem, known⟩ := Concrete.part?_spec found
  rw [found]
  exact .one (block_part sound (formed.of_mem_nodes mem) known read)

/-- The nodes of a function or a method. -/
structure Callable (c named : Concrete) (types : Option Concrete) (list : Concrete)
    (result : Option Concrete) (inside : Concrete) : Prop where
  shape : c.nodes = named :: (types.toList ++ list :: (result.toList ++ [inside]))
  typed : ∀ d, types = some d → d.is .typeParameters = true
  listed : list.is .parameters = true
  stated : ∀ d, result = some d → d.statesResult = true
  enclosed : inside.is .block = true
  /-- The name is no such part itself. -/
  apart : ∀ k ∈ [Construct.typeParameters, .parameters, .block], named.is k = false
  silent : named.statesResult = false

namespace Callable

variable {named list inside : Concrete} {types result : Option Concrete}
  (h : Callable c named types list result inside)

include h

theorem result_is (free : j = .typeParameters ∨ j = .parameters ∨ j = .block) :
    ∀ d, result = some d → d.is j = false := by
  intro d same
  obtain ⟨k, known, cases⟩ := Concrete.exists_of_statesResult (h.stated d same)
  rw [Concrete.is_of_construct? known]
  rcases free with rfl | rfl | rfl <;> rcases cases with rfl | rfl | rfl <;> rfl

theorem part?_typeParameters : c.part? .typeParameters = types := by
  rw [Concrete.part?_eq, h.shape, List.find?_cons, h.apart _ (by simp), List.find?_append,
    Concrete.find?_toList_self h.typed, List.find?_cons,
    Concrete.is_of_construct? (Concrete.is_iff.mp h.listed), List.find?_append,
    Concrete.find?_toList_none (h.result_is (.inl rfl)), List.find?_cons,
    Concrete.is_of_construct? (Concrete.is_iff.mp h.enclosed)]
  simp

theorem part?_parameters : c.part? .parameters = some list := by
  rw [Concrete.part?_eq, h.shape, List.find?_cons, h.apart _ (by simp), List.find?_append,
    Concrete.find?_toList_of_is h.typed, List.find?_cons, h.listed]
  simp

theorem part?_block : c.part? .block = some inside := by
  rw [Concrete.part?_eq, h.shape, List.find?_cons, h.apart _ (by simp), List.find?_append,
    Concrete.find?_toList_of_is h.typed, List.find?_cons,
    Concrete.is_of_construct? (Concrete.is_iff.mp h.listed), List.find?_append,
    Concrete.find?_toList_none (h.result_is (.inr (.inr rfl))), List.find?_cons, h.enclosed]
  simp

theorem find?_result : c.nodes.find? Concrete.statesResult = result := by
  have typed : ∀ d, types = some d → d.statesResult = false := fun d same => by
    rw [Concrete.statesResult_of_construct? (Concrete.is_iff.mp (h.typed d same))]
    rfl
  rw [h.shape, List.find?_cons, h.silent, List.find?_append, Concrete.find?_toList_none typed,
    List.find?_cons, Concrete.statesResult_of_construct? (Concrete.is_iff.mp h.listed),
    List.find?_append, Concrete.find?_toList_self h.stated, List.find?_cons,
    Concrete.statesResult_of_construct? (Concrete.is_iff.mp h.enclosed)]
  simp

/-- Everything of a callable is read. -/
theorem parts (sound : Sound statement) (formed : c.WellFormed) {name b : Sketch}
    {t : Option (List Sketch)} {r : Option Sketch} (part : Part k named [name])
    (readTypes : typeParameters c = .ok t) (readList : parameters c = .ok ss)
    (readResult : returnType c = .ok r) (readBody : body statement c = .ok b) :
    Parts k c.nodes (name :: (t.getD [] ++ (ss ++ (r.toList ++ [b])))) := by
  have partTypes := typeParameters_parts (k := k) formed readTypes
  have partList := parameters_parts (k := k) formed readList
  have partResult := returnType_parts (k := k) formed readResult
  have partBody := body_parts (k := k) sound formed readBody
  rw [h.part?_typeParameters] at partTypes
  rw [h.part?_parameters] at partList
  rw [h.find?_result] at partResult
  rw [h.part?_block] at partBody
  rw [h.shape]
  exact .cons part (partTypes.append (partList.append (partResult.append partBody)))

end Callable

theorem collects_callable
    (make : NodeId → Option (List NodeId) → List NodeId → Option NodeId → NodeId → NodeKind)
    (name b : Sketch) (t : Option (List Sketch)) (ss : List Sketch) (r : Option Sketch)
    (children : ∀ n t ps r b,
      (make n t ps r b).children = n :: t.getD [] ++ ps ++ r.toList ++ [b])
    (plain : ∀ n t ps r b, (make n t ps r b).isPlain = true) :
    Collects (do
        return make (← one name) (← optionalMany t) (← many ss) (← Filling.optional r) (← one b))
      (name :: (t.getD [] ++ (ss ++ (r.toList ++ [b])))) where
  parts := by
    simp only [run_bind, run_one, run_optionalMany, run_many, run_optional, run_pure]
    simp
  numbered := by
    simp only [run_bind, run_one, run_optionalMany, run_many, run_optional, run_pure, children,
      getD_range', toList_range', List.length_append, List.length_cons, List.length_nil]
    simp (disch := omega) only [range'_join, cons_range', List.append_nil, List.range_eq_range']
    congr 1
    omega
  plain := plain ..

/-- A function is read from its own parts, wherever it stands. -/
theorem function_joins (sound : Sound statement) {outer : Concrete} (formed : c.WellFormed)
    (known : c.construct? = some .functionDeclaration) (done : function statement c outer = .ok s) :
    ∃ ss, Part k c ss ∧ s.Joins outer.tokens ss := by
  obtain ⟨named, _, shape, isName, filled⟩ :=
    Slot.exists_of_fill_one (formed.fill known rfl rfl)
  obtain ⟨types, _, rfl, typed, filled⟩ := Slot.exists_of_fill_maybe filled
  obtain ⟨list, _, rfl, listed, filled⟩ := Slot.exists_of_fill_one filled
  obtain ⟨result, _, rfl, stated, filled⟩ := Slot.exists_of_fill_maybe filled
  obtain ⟨inside, _, rfl, enclosed, filled⟩ := Slot.exists_of_fill_one filled
  cases Slot.eq_nil_of_fill filled
  have isName := Concrete.is_iff.mp isName
  have callable : Callable c named types list result inside := by
    refine ⟨shape, typed, listed, stated, enclosed, ?_, ?_⟩
    · simp [Concrete.is_of_construct? isName]
    · rw [Concrete.statesResult_of_construct? isName]
      rfl
  have foundName : c.part? .identifier = some named := by
    rw [Concrete.part?_eq, shape, List.find?_cons, Concrete.is_of_construct? isName]
    simp
  obtain ⟨_, first, done⟩ := bind_ok done
  rw [foundName] at first
  cases lift_ok first
  obtain ⟨name, readName, done⟩ := bind_ok done
  obtain ⟨t, readTypes, done⟩ := bind_ok done
  obtain ⟨ps, readList, done⟩ := bind_ok done
  obtain ⟨r, readResult, done⟩ := bind_ok done
  obtain ⟨b, readBody, done⟩ := bind_ok done
  have part := identifier_part (k := .functionDeclaration)
    (formed.of_mem_nodes (by simp [shape])) isName (by simp) readName
  have parts := callable.parts sound formed part readTypes readList readResult readBody
  exact ⟨_, parts.whole known rfl nofun (.inl nofun),
    sketch_joins done (collects_callable .functionDeclaration name b t ps r
      (fun _ _ _ _ _ => rfl) fun _ _ _ _ _ => rfl)⟩

end Dartify.Abstraction
