import Mathlib.Data.List.Flatten
import Dartify.Abstraction.Types
import Dartify.Proofs.Abstraction.Expressions

/-! What types are read as. They hold no values, so nothing in them must be read, and a default
for a type parameter is not. -/
namespace Dartify.Abstraction

open Syntax Sketch Filling

variable {c : Concrete} {s : Sketch} {ss : List Sketch} {j k : Construct}
  {inner : Concrete → Reading Sketch}

/-- What is read of a construct about types may be any of its parts. -/
theorem Parts.typed {cs : List Concrete} (known : c.construct? = some j)
    (typing : j.isTyping = true) (free : j.isAtom = false) (sub : cs.Sublist c.nodes)
    (h : Parts j cs ss) : Part k c ss := by
  have tokens := (Concrete.tokensOf_sublist sub).trans c.tokensOf_nodes_sublist
  refine Renders.weaken h tokens ?_ ?_
  · have skip := skips_typing (k := k) known typing
    simp [Concrete.atomsIn, skip]
  · have stays : Concrete.isLeftOut k c = false := by
      rw [Concrete.isLeftOut, Concrete.is_of_construct? known, Concrete.is_of_construct? known]
      have other : j ≠ .decorator ∧ j ≠ .initializer := by
        constructor <;> (rintro rfl; cases typing)
      simp [other]
    rw [Concrete.atomsIn, if_neg (by simp [stays]), Concrete.atoms_eq_flatMap known free]
    exact sub.flatMap _

theorem essence_ok {d : Concrete} (done : essence c = .ok d) : d ∈ c.nodes := by
  unfold essence at done
  split at done
  · rename_i shape
    cases done
    rw [shape]
    exact List.mem_cons_self
  · cases done
  · cases done

theorem collects_reference (name : Sketch) (arguments : Option (List Sketch)) :
    Collects (do return .typeReference (← one name) (← optionalMany arguments))
      (name :: arguments.getD []) where
  parts := by simp only [run_bind, run_one, run_optionalMany, run_pure]; rfl
  numbered := by
    simp only [run_bind, run_one, run_optionalMany, run_pure, NodeKind.children, getD_range']
    simp [List.range_eq_range', List.range'_succ]
  plain := rfl

theorem typeName_part (formed : c.WellFormed) (done : typeName c = .ok s) : Part k c [s] := by
  unfold typeName at done
  split at done
  · rename_i isName
    exact identifier_part formed (Concrete.is_iff.mp isName) (by simp) done
  · exact part_foreign done

theorem argumentsWith_part (sound : Sound inner) (formed : c.WellFormed)
    (known : c.construct? = some .typeArguments) (done : c.nodes.mapM inner = .ok ss) :
    Part k c ss := by
  have inside := forall₂_part (k := .typeArguments)
    (fun d mem s read => sound (formed.of_mem_nodes mem) read _) (mapM_ok done)
  exact (Parts.of_forall₂ inside).typed known rfl rfl (.refl _)

theorem typeWith_sound (sound : Sound inner) : Sound (typeWith inner) := by
  intro c s formed done k
  obtain ⟨j, known, done⟩ := bind_ok done
  have known := lift_ok known
  split at done
  · obtain ⟨d, first, done⟩ := bind_ok done
    have mem := essence_ok first
    exact (Parts.one (sound (formed.of_mem_nodes mem) done _)).typed known rfl rfl
      (List.singleton_sublist.mpr mem)
  · split at done
    · obtain ⟨site, found, rfl⟩ := leaf_ok done
      have word : Part k c [] := .skipped (skips_typing known rfl)
      exact word.joined ⟨site, _, rfl, site?_opens found, rfl, rfl⟩
    · exact part_unsupported done
  · obtain ⟨name, named, done⟩ := bind_ok done
    have part := identifier_part (k := k) formed known (by simp) named
    exact part.joined (sketch_joins done ⟨rfl, rfl, rfl⟩)
  · obtain ⟨named, _, shape, main, filled⟩ := Slot.exists_of_fill_one (formed.fill known rfl rfl)
    obtain ⟨list, _, rfl, listed, filled⟩ := Slot.exists_of_fill_one filled
    cases Slot.eq_nil_of_fill filled
    have found : c.part? .typeArguments = some list := by
      rw [Concrete.part?_eq, shape, List.find?_cons, Concrete.is_of_isMain main rfl,
        List.find?_cons, listed]
    obtain ⟨_, head, done⟩ := bind_ok done
    rw [shape] at head
    cases lift_ok head
    obtain ⟨name, readName, done⟩ := bind_ok done
    obtain ⟨arguments, readList, done⟩ := bind_ok done
    rw [found] at readList
    obtain ⟨types, read, same⟩ := bind_ok readList
    cases same
    have partName : Part .genericType named [name] :=
      typeName_part (formed.of_mem_nodes (by simp [shape])) readName
    have partList : Part .genericType list types :=
      argumentsWith_part sound (formed.of_mem_nodes (by simp [shape])) (Concrete.is_iff.mp listed)
        read
    have parts : Parts .genericType c.nodes (name :: types) := by
      rw [shape]
      exact .cons partName (.one partList)
    exact Renders.joined (parts.whole known rfl nofun (.inl nofun))
      (sketch_joins done (collects_reference name (some types)))
  · exact part_foreign done

theorem typeWithin_sound (n : Nat) : Sound (typeWithin n) := by
  induction n with
  | zero =>
    intro c s formed done
    cases done
  | succ n ih => exact typeWith_sound ih

theorem type_sound : Sound type := fun formed done => typeWithin_sound _ formed done

theorem typeArguments_part (formed : c.WellFormed) (known : c.construct? = some .typeArguments)
    (done : typeArguments c = .ok ss) : Part k c ss :=
  argumentsWith_part type_sound formed known done

/-- A part that may be missing. -/
theorem optional_parts {read : Concrete → Reading Sketch} (sound : Sound read) {o : Option Concrete}
    (formed : ∀ d, o = some d → d.WellFormed) {v : Option Sketch} (done : optional read o = .ok v) :
    Parts k o.toList v.toList := by
  refine .of_forall₂ (forall₂_part ?_ (mapM_option_ok done))
  intro d mem s read
  exact sound (formed d (Option.mem_toList.mp mem)) read k

theorem annotation_parts (formed : c.WellFormed) {v : Option Sketch} (done : annotation c = .ok v) :
    Parts k (c.part? .ascription).toList v.toList :=
  optional_parts type_sound
    (fun _ found => formed.of_mem_nodes (Concrete.part?_spec found).1) done

theorem returnType_parts (formed : c.WellFormed) {v : Option Sketch} (done : returnType c = .ok v) :
    Parts k (c.nodes.find? Concrete.statesResult).toList v.toList :=
  optional_parts type_sound
    (fun _ found => formed.of_mem_nodes (List.mem_of_find?_eq_some found)) done

theorem typeParameter_part (formed : c.WellFormed) (known : c.construct? = some .typeParameter)
    (done : typeParameter c = .ok s) : Part k c [s] := by
  obtain ⟨named, _, shape, isName, filled⟩ :=
    Slot.exists_of_fill_one (formed.fill known rfl rfl)
  obtain ⟨bound, _, rfl, bounded, filled⟩ := Slot.exists_of_fill_maybe filled
  obtain ⟨default, _, rfl, defaults, filled⟩ := Slot.exists_of_fill_maybe filled
  cases Slot.eq_nil_of_fill filled
  have foundName : c.part? .typeIdentifier = some named := by
    rw [Concrete.part?_eq, shape, List.find?_cons, isName]
  have foundBound : c.part? .constraint = bound := by
    rw [Concrete.part?_eq, shape, List.find?_cons,
      Concrete.is_of_construct? (Concrete.is_iff.mp isName), List.find?_append, List.find?_append,
      Concrete.find?_toList_of_is bounded, Concrete.find?_toList_of_is defaults]
    simp
  obtain ⟨_, first, done⟩ := bind_ok done
  rw [foundName] at first
  cases lift_ok first
  obtain ⟨name, readName, done⟩ := bind_ok done
  obtain ⟨limit, readBound, done⟩ := bind_ok done
  rw [foundBound] at readBound
  have partName := identifier_part (k := .typeParameter) (formed.of_mem_nodes (by simp [shape]))
    (Concrete.is_iff.mp isName) (by simp) readName
  have partBound : Parts .typeParameter bound.toList limit.toList := by
    refine .of_forall₂ (forall₂_part ?_ (mapM_option_ok readBound))
    intro clause mem s read
    obtain ⟨d, first, read⟩ := bind_ok read
    have mem' := essence_ok first
    have formed : clause.WellFormed := formed.of_mem_nodes (by simp [shape, mem])
    have known := Concrete.is_iff.mp (bounded clause (Option.mem_toList.mp mem))
    exact (Parts.one (type_sound (formed.of_mem_nodes mem') read _)).typed known rfl rfl
      (List.singleton_sublist.mpr mem')
  have parts : Part k c (name :: limit.toList) := by
    refine (Parts.cons partName partBound).typed known rfl rfl ?_
    rw [shape]
    exact .cons_cons _ (List.sublist_append_left ..)
  refine parts.joined (sketch_joins done ⟨?_, ?_, rfl⟩)
  · cases limit <;> rfl
  · cases limit <;> rfl

theorem typeParameters_parts (formed : c.WellFormed) {v : Option (List Sketch)}
    (done : typeParameters c = .ok v) : Parts k (c.part? .typeParameters).toList (v.getD []) := by
  unfold typeParameters at done
  cases found : c.part? .typeParameters with
  | none =>
    rw [found] at done
    cases done
    exact .nil
  | some list =>
    rw [found] at done
    obtain ⟨types, read, same⟩ := bind_ok done
    cases same
    obtain ⟨mem, known⟩ := Concrete.part?_spec found
    have formed := formed.of_mem_nodes mem
    obtain ⟨front, _, shape, all, filled⟩ := Slot.exists_of_fill_many (formed.fill known rfl rfl)
    cases Slot.eq_nil_of_fill filled
    have inside := forall₂_part (k := .typeParameters)
      (fun d mem s read => typeParameter_part (formed.of_mem_nodes mem)
        (Concrete.is_iff.mp (all d (by simpa [shape] using mem))) read) (mapM_ok read)
    exact .one ((Parts.of_forall₂ inside).typed known rfl rfl (.refl _))

end Dartify.Abstraction
