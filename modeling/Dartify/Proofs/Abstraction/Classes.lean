import Dartify.Proofs.Abstraction.Declarations

/-! What classes are read as. Their members alone may be constructors. -/
namespace Dartify.Abstraction

open Syntax Sketch Filling

variable {c : Concrete} {s : Sketch} {ss : List Sketch} {j k : Construct}
  {statement : Concrete → Reading Sketch}

/-! ## Supertypes -/

theorem supertype_joins {value : Concrete} {list : Option Concrete}
    (done : supertype value list = .ok s) :
    ∃ name arguments, expression value = .ok name ∧
      Option.mapM typeArguments list = .ok arguments ∧
      s.Joins (Concrete.tokensOf (value :: list.toList)) (name :: arguments.getD []) := by
  obtain ⟨site, found, done⟩ := bind_ok done
  obtain ⟨last, -, done⟩ := bind_ok done
  obtain ⟨name, readName, done⟩ := bind_ok done
  obtain ⟨arguments, readList, done⟩ := bind_ok done
  cases done
  have opens :=
    ((site?_opens (lift_ok found)).upTo last.stop).append (Concrete.tokensOf list.toList)
  exact ⟨name, arguments, readName, readList, (collects_reference name arguments).joins opens⟩

/-- A value with the type arguments behind it. -/
theorem supertype_parts {value : Concrete} (formed : value.WellFormed) {list : Option Concrete}
    (formedList : ∀ d, list = some d → d.WellFormed ∧ d.construct? = some .typeArguments)
    (done : supertype value list = .ok s) : Parts k (value :: list.toList) [s] := by
  obtain ⟨name, arguments, readName, readList, joins⟩ := supertype_joins done
  have part := expression_sound formed readName k
  have partList : Parts k list.toList (arguments.getD []) := by
    cases list with
    | none =>
      cases readList
      exact .nil
    | some d =>
      obtain ⟨types, read, same⟩ := bind_ok readList
      cases same
      obtain ⟨formed, known⟩ := formedList d rfl
      exact .one (typeArguments_part formed known read)
  exact Renders.joined (Parts.cons part partList) joins

theorem carried_part {value : Concrete} (formed : value.WellFormed)
    (done : supertype (supertypeGroups.carried value).1 (supertypeGroups.carried value).2 = .ok s) :
    Part k value [s] := by
  unfold supertypeGroups.carried at done
  split at done
  · rename_i instantiated
    have known := Concrete.is_iff.mp instantiated
    obtain ⟨inside, _, shape, main, filled⟩ :=
      Slot.exists_of_fill_one (formed.fill known rfl rfl)
    obtain ⟨list, _, rfl, listed, filled⟩ := Slot.exists_of_fill_one filled
    cases Slot.eq_nil_of_fill filled
    have found : value.part? .typeArguments = some list := by
      rw [Concrete.part?_eq, shape, List.find?_cons, Concrete.is_of_isMain main rfl,
        List.find?_cons, listed]
    simp only [shape, found, List.headD_cons] at done
    have parts : Parts .instantiation value.nodes [s] := by
      rw [shape]
      refine supertype_parts (formed.of_mem_nodes (by simp [shape])) ?_ done
      rintro d same
      cases same
      exact ⟨formed.of_mem_nodes (by simp [shape]), Concrete.is_iff.mp listed⟩
    exact parts.whole known rfl nofun (.inl nofun)
  · have parts : Parts k (value :: (none : Option Concrete).toList) [s] :=
      supertype_parts formed nofun done
    simpa [Parts, Part, Concrete.tokensOf] using parts

theorem supertypes_parts (values : List Concrete) (formed : ∀ d ∈ values, d.WellFormed)
    (done : List.Forall₂ (fun g s => supertype g.1 g.2 = .ok s) (supertypeGroups values) ss) :
    Parts k values ss := by
  fun_induction supertypeGroups values generalizing ss with
  | case1 =>
    cases done
    exact .nil
  | case2 value typing =>
    cases done
    exact .one (.skipped (skips_typing (Concrete.is_iff.mp typing) rfl))
  | case3 value =>
    cases done with
    | cons first rest =>
      cases rest
      exact .one (carried_part (formed value (by simp)) first)
  | case4 value next more typing ih =>
    exact .cons (.skipped (skips_typing (Concrete.is_iff.mp typing) rfl))
      (ih (fun d mem => formed d (List.mem_cons_of_mem _ mem)) done)
  | case5 value next more _ typing ih =>
    cases done with
    | cons first rest =>
      have formedNext : ∀ d, some next = some d →
          d.WellFormed ∧ d.construct? = some .typeArguments := by
        rintro d same
        cases same
        exact ⟨formed next (by simp), Concrete.is_iff.mp (Bool.and_eq_true_iff.mp typing).1⟩
      have group := supertype_parts (k := k) (formed value (by simp)) formedNext first
      exact group.append (ih (fun d mem => formed d (by simp [mem])) rest)
  | case6 value next more _ _ ih =>
    cases done with
    | cons first rest =>
      exact .cons (carried_part (formed value (by simp)) first)
        (ih (fun d mem => formed d (List.mem_cons_of_mem _ mem)) rest)

theorem heritageClause_part (formed : c.WellFormed) (done : heritageClause c = .ok s) :
    Part k c [s] := by
  obtain ⟨j, known, done⟩ := bind_ok done
  have known := lift_ok known
  split at done
  · obtain ⟨types, read, done⟩ := bind_ok done
    have parts := supertypes_parts (k := .extendsClause) c.nodes
      (fun d mem => formed.of_mem_nodes mem) (mapM_ok read)
    exact Renders.joined (parts.whole known rfl nofun (.inl nofun))
      (sketch_joins done ⟨rfl, List.range_eq_range'.symm, rfl⟩)
  · obtain ⟨types, read, done⟩ := bind_ok done
    have inside := forall₂_part (k := .implementsClause)
      (fun d mem s read => type_sound (formed.of_mem_nodes mem) read _) (mapM_ok read)
    exact Renders.joined ((Parts.of_forall₂ inside).typed known rfl rfl (.refl _))
      (sketch_joins done ⟨rfl, List.range_eq_range'.symm, rfl⟩)
  · exact part_foreign done

/-! ## Members -/

/-- What is said of the sketches that a member of a class is read as. -/
def Member (k : Construct) (c : Concrete) (ss : List Sketch) : Prop :=
  Yields c.tokens (c.atomsIn (Concrete.either Concrete.isValueless Concrete.isLeftOut) k)
    (c.atomsIn Concrete.isLeftOut k) ss

theorem Member.of_part (h : Part k c ss) : Member k c ss := h.toYields

theorem exists_of_isMemberName (name : c.isMemberName = true) :
    ∃ k, c.construct? = some k ∧ (k.isAtom = true ∨ k = .named "private_property_identifier" ∨
      k = .named "computed_property_name" ∧ c.first?.any (·.text == "[") = true) := by
  simp only [Concrete.isMemberName, Bool.or_eq_true, Bool.and_eq_true, Concrete.is_iff,
    Option.any_eq_true_iff_get] at name
  rcases name with (⟨known, atom⟩ | known) | ⟨known, opened⟩
  · exact ⟨_, (Option.some_get known).symm, .inl atom⟩
  · exact ⟨_, known, .inr (.inl rfl)⟩
  · exact ⟨_, known, .inr (.inr ⟨rfl, by rw [Option.any_eq_true_iff_get]; exact opened⟩)⟩

theorem is_of_isMemberName (name : c.isMemberName = true) (free : j.isAtom = false)
    (plain : ∀ construct, j ≠ .named construct) : c.is j = false := by
  obtain ⟨k, known, cases⟩ := exists_of_isMemberName name
  rw [Concrete.is_of_construct? known, decide_eq_false_iff_not]
  rintro rfl
  rcases cases with atom | rfl | ⟨rfl, -⟩
  · rw [free] at atom
    cases atom
  · exact plain _ rfl
  · exact plain _ rfl

/-- A computed name begins with a bracket. -/
theorem text_of_first {t : Token} (first : c.first? = some t) :
    ∃ rest, c.text = String.ofList (t.text.toList ++ rest) := by
  rw [Concrete.first?_eq] at first
  unfold Concrete.text
  cases shape : c.tokens with
  | nil =>
    rw [shape] at first
    cases first
  | cons u us =>
    rw [shape] at first
    cases first
    exact ⟨_, rfl⟩

/-- The name of a constructor holds no value. -/
theorem constructorName_skipped (name : c.isMemberName = true) (text : c.text = "constructor") :
    Part .method c [] := by
  obtain ⟨k, known, cases⟩ := exists_of_isMemberName name
  rcases cases with atom | rfl | ⟨rfl, opened⟩
  · exact .skipped (by simp [Concrete.either, Concrete.isValueless, known, atom])
  · exact .skipped (by simp [Concrete.either, Concrete.isValueless, Concrete.is_iff, known])
  · rw [Option.any_eq_true_iff_get] at opened
    obtain ⟨some, bracket⟩ := opened
    obtain ⟨rest, same⟩ := text_of_first (Option.some_get some).symm
    rw [same, beq_iff_eq.mp bracket, ← String.toList_inj] at text
    simp at text

theorem callable_method (formed : c.WellFormed) (known : c.construct? = some .method) :
    ∃ named types list result inside, Callable c named types list result inside ∧
      named.isMemberName = true := by
  obtain ⟨named, _, shape, isName, filled⟩ :=
    Slot.exists_of_fill_one (formed.fill known rfl rfl)
  obtain ⟨types, _, rfl, typed, filled⟩ := Slot.exists_of_fill_maybe filled
  obtain ⟨list, _, rfl, listed, filled⟩ := Slot.exists_of_fill_one filled
  obtain ⟨result, _, rfl, stated, filled⟩ := Slot.exists_of_fill_maybe filled
  obtain ⟨inside, _, rfl, enclosed, filled⟩ := Slot.exists_of_fill_one filled
  cases Slot.eq_nil_of_fill filled
  refine ⟨named, types, list, result, inside,
    ⟨shape, typed, listed, stated, enclosed, ?_, ?_⟩, isName⟩
  · intro k mem
    simp only [List.mem_cons, List.not_mem_nil, or_false] at mem
    rcases mem with rfl | rfl | rfl <;> exact is_of_isMemberName isName rfl nofun
  · obtain ⟨k, known, cases⟩ := exists_of_isMemberName isName
    rw [Concrete.statesResult_of_construct? known]
    rcases cases with atom | rfl | ⟨rfl, -⟩
    · cases k <;> first | rfl | cases atom
    · simp
    · simp

theorem fits_constructor (ss : List Sketch) (b : Sketch)
    (free : ∀ s ∈ ss ++ [b], s.kind.isConstructor = false) :
    Fits (.constructor (List.range' 0 ss.length) ss.length) ((ss ++ [b]).map Sketch.kind) where
  numbered := by simp [NodeKind.children, List.range_eq_range', List.range'_1_concat]
  named := nofun
  owned := by
    intro i part at_ constructor
    obtain ⟨s, mem, rfl⟩ := List.mem_map.mp (List.mem_of_getElem? at_)
    rw [free s mem] at constructor
    cases constructor
  grouped := nofun
  spelled := nofun

/-- The result of a constructor is not read. -/
theorem result_skipped {result : Option Concrete}
    (stated : ∀ d, result = some d → d.statesResult = true) : Parts k result.toList [] := by
  refine .skipped fun d mem => ?_
  obtain ⟨j, known, cases⟩ := Concrete.exists_of_statesResult (stated d (Option.mem_toList.mp mem))
  refine skips_typing known ?_
  rcases cases with rfl | rfl | rfl <;> rfl

theorem method_member (sound : Sound statement) (formed : c.WellFormed)
    (known : c.construct? = some .method) (done : method statement c = .ok s) :
    Member k c [s] := by
  obtain ⟨named, types, list, result, inside, callable, isName⟩ := callable_method formed known
  unfold method at done
  split at done
  · exact .of_part (part_unsupported done)
  · obtain ⟨_, head, done⟩ := bind_ok done
    rw [callable.shape] at head
    cases lift_ok head
    obtain ⟨ps, readList, done⟩ := bind_ok done
    split at done
    · rename_i special
      obtain ⟨b, readBody, done⟩ := bind_ok done
      obtain ⟨site, opens, rfl⟩ := sketch_ok done
      have skipTypes : Parts .method types.toList [] := .typing callable.typed rfl
      have skipResult : Parts .method result.toList [] := result_skipped callable.stated
      have partList := parameters_parts (k := .method) formed readList
      have partBody := body_parts (k := .method) sound formed readBody
      rw [callable.part?_parameters] at partList
      rw [callable.part?_block] at partBody
      have parts : Parts .method c.nodes ([] ++ ([] ++ (ps ++ ([] ++ [b])))) := by
        rw [callable.shape]
        exact .cons (constructorName_skipped isName (beq_iff_eq.mp special))
          (skipTypes.append (partList.append (skipResult.append partBody)))
      have part : Part k c (ps ++ [b]) := parts.whole known rfl nofun (.inl nofun)
      exact part.toYields.node opens (fits_constructor ps b part.free) rfl
    · obtain ⟨name, readName, done⟩ := bind_ok done
      obtain ⟨t, readTypes, done⟩ := bind_ok done
      obtain ⟨r, readResult, done⟩ := bind_ok done
      obtain ⟨b, readBody, done⟩ := bind_ok done
      have part := memberName_sound (formed.of_mem_nodes (by simp [callable.shape])) readName
        .method
      have parts := callable.parts sound formed part readTypes readList readResult readBody
      exact .of_part (Renders.joined (parts.whole known rfl nofun (.inl nofun))
        (sketch_joins done (collects_callable .methodDeclaration name b t ps r
          (fun _ _ _ _ _ => rfl) fun _ _ _ _ _ => rfl)))

theorem field_part (formed : c.WellFormed) (known : c.construct? = some .field)
    (done : field c = .ok s) : Part k c [s] := by
  obtain ⟨front, _, shape, decorators, filled⟩ :=
    Slot.exists_of_fill_many (formed.fill known rfl rfl)
  obtain ⟨named, _, rfl, isName, filled⟩ := Slot.exists_of_fill_one filled
  obtain ⟨type, _, rfl, typed, filled⟩ := Slot.exists_of_fill_maybe filled
  obtain ⟨value, _, rfl, valued, filled⟩ := Slot.exists_of_fill_maybe filled
  cases Slot.eq_nil_of_fill filled
  rw [List.append_nil] at shape
  obtain ⟨_, head, done⟩ := bind_ok done
  rw [head?_undecorated shape decorators (is_of_isMemberName isName rfl nofun)] at head
  cases lift_ok head
  obtain ⟨name, readName, done⟩ := bind_ok done
  obtain ⟨t, readType, done⟩ := bind_ok done
  obtain ⟨v, readValue, done⟩ := bind_ok done
  have part := memberName_sound (formed.of_mem_nodes (by simp [shape])) readName .field
  have parts := bound_parts (k := .field) front formed nofun shape decorators typed valued
    (is_of_isMemberName isName rfl nofun) (is_of_isMemberName isName rfl nofun) part readType
    readValue
  exact Renders.joined (parts.whole known rfl nofun (.inl nofun))
    (sketch_joins done (collects_bound .propertyDeclaration name t v (fun _ _ _ => rfl)
      fun _ _ _ => rfl))

theorem classMember_member (sound : Sound statement) (formed : c.WellFormed)
    (done : classMember statement c = .ok s) : Member k c [s] := by
  obtain ⟨j, known, done⟩ := bind_ok done
  have known := lift_ok known
  split at done
  · exact method_member sound formed known done
  · exact .of_part (field_part formed known done)
  · exact .of_part (part_foreign done)

/-- What is said of the sketches that some members are read as. -/
def Members (k : Construct) (cs : List Concrete) (ss : List Sketch) : Prop :=
  Yields (Concrete.tokensOf cs)
    (cs.flatMap (Concrete.atomsIn (Concrete.either Concrete.isValueless Concrete.isLeftOut) k))
    (cs.flatMap (Concrete.atomsIn Concrete.isLeftOut k)) ss

theorem Members.of_forall₂ {cs : List Concrete}
    (members : List.Forall₂ (fun c s => Member k c [s]) cs ss) : Members k cs ss := by
  induction members with
  | nil => exact .nil
  | cons first rest ih => exact Yields.append first ih

theorem Members.one (h : Member k c ss) : Members k [c] ss := by
  simpa [Members, Member, Concrete.tokensOf] using h

theorem Members.concat {cs : List Concrete} {ss' : List Sketch} (h : Parts k cs ss)
    (h' : Member k c ss') : Members k (cs ++ [c]) (ss ++ ss') := by
  unfold Members
  rw [List.flatMap_append, List.flatMap_append, Concrete.tokensOf_append]
  exact Yields.append h.toYields (Members.one h')

theorem Members.whole (known : c.construct? = some j) (free : j.isAtom = false)
    (kept : j ≠ .decorator) (valued : j ≠ .initializer ∨ k ≠ .forInStatement)
    (h : Members j c.nodes ss) : Member k c ss :=
  have bounds := whole_bounds known free kept valued
  Yields.weaken h c.tokensOf_nodes_sublist bounds.1 bounds.2

theorem classBody_member (sound : Sound statement) (formed : c.WellFormed)
    (known : c.construct? = some .classBody)
    (done : c.nodes.mapM (classMember statement) = .ok ss) : Member k c ss := by
  have members : List.Forall₂ (fun c s => Member .classBody c [s]) c.nodes ss :=
    forall₂_read (fun d mem s read => classMember_member sound (formed.of_mem_nodes mem) read)
      (mapM_ok done)
  exact (Members.of_forall₂ members).whole known rfl nofun (.inl nofun)

/-! ## Classes -/

/-- The nodes of a class. -/
structure ClassNodes (c : Concrete) (front : List Concrete) (named : Concrete)
    (types extended implemented : Option Concrete) (inside : Concrete) : Prop where
  shape : c.nodes =
    front ++ named :: (types.toList ++ (extended.toList ++ (implemented.toList ++ [inside])))
  decorators : ∀ d ∈ front, d.construct? = some .decorator
  isName : named.construct? = some .typeIdentifier
  typed : ∀ d, types = some d → d.is .typeParameters = true
  extending : ∀ d, extended = some d → d.is .extendsClause = true
  implementing : ∀ d, implemented = some d → d.is .implementsClause = true
  enclosed : inside.construct? = some .classBody

theorem exists_classNodes (formed : c.WellFormed)
    (known : c.construct? = some .classDeclaration) :
    ∃ front named types extended implemented inside,
      ClassNodes c front named types extended implemented inside := by
  obtain ⟨front, _, shape, decorators, filled⟩ :=
    Slot.exists_of_fill_many (formed.fill known rfl rfl)
  obtain ⟨named, _, rfl, isName, filled⟩ := Slot.exists_of_fill_one filled
  obtain ⟨types, _, rfl, typed, filled⟩ := Slot.exists_of_fill_maybe filled
  obtain ⟨extended, _, rfl, extending, filled⟩ := Slot.exists_of_fill_maybe filled
  obtain ⟨implemented, _, rfl, implementing, filled⟩ := Slot.exists_of_fill_maybe filled
  obtain ⟨inside, _, rfl, enclosed, filled⟩ := Slot.exists_of_fill_one filled
  cases Slot.eq_nil_of_fill filled
  exact ⟨front, named, types, extended, implemented, inside, shape,
    fun d mem => Concrete.is_iff.mp (decorators d mem), Concrete.is_iff.mp isName, typed, extending,
    implementing, Concrete.is_iff.mp enclosed⟩

namespace ClassNodes

variable {front : List Concrete} {named inside : Concrete}
  {types extended implemented : Option Concrete}
  (h : ClassNodes c front named types extended implemented inside)

include h

theorem find?_front {test : Concrete → Bool}
    (fails : ∀ d : Concrete, d.construct? = some .decorator → test d = false) :
    front.find? test = none := by
  refine List.find?_eq_none.mpr fun d mem => ?_
  simp [fails d (h.decorators d mem)]

theorem part?_typeIdentifier : c.part? .typeIdentifier = some named := by
  rw [Concrete.part?_eq, h.shape, List.find?_append,
    h.find?_front fun d known => by rw [Concrete.is_of_construct? known]; rfl, List.find?_cons,
    Concrete.is_of_construct? h.isName]
  simp

/-- A part that is neither a decorator nor the name is looked up among those behind the name. -/
theorem part?_eq_behind (decorates : j ≠ .decorator) (names : j ≠ .typeIdentifier) :
    c.part? j =
      (if .typeParameters = j then types else none).or
        ((if .extendsClause = j then extended else none).or
          ((if .implementsClause = j then implemented else none).or
            (if .classBody = j then some inside else none))) := by
  rw [Concrete.part?_eq, h.shape, List.find?_append,
    h.find?_front fun d known => by simp [Concrete.is_of_construct? known, decorates.symm],
    List.find?_cons, Concrete.is_of_construct? h.isName, List.find?_append, List.find?_append,
    List.find?_append, Concrete.find?_toList_of_is h.typed, Concrete.find?_toList_of_is h.extending,
    Concrete.find?_toList_of_is h.implementing, List.find?_cons,
    Concrete.is_of_construct? h.enclosed]
  by_cases last : Construct.classBody = j <;> simp [names.symm, last]

theorem part?_typeParameters : c.part? .typeParameters = types := by
  simp [h.part?_eq_behind]

theorem part?_classBody : c.part? .classBody = some inside := by
  simp [h.part?_eq_behind]

theorem filter_isHeritage :
    c.nodes.filter isHeritage = extended.toList ++ implemented.toList := by
  have apart : ∀ {d : Concrete} {j : Construct}, d.construct? = some j → j ≠ .extendsClause →
      j ≠ .implementsClause → isHeritage d = false := by
    intro d j known other other'
    simp [isHeritage, Concrete.is_of_construct? known, other, other']
  have skipped : front.filter isHeritage = [] := by
    rw [List.filter_eq_nil_iff]
    intro d mem
    simp [apart (h.decorators d mem) nofun nofun]
  have skippedTypes : types.toList.filter isHeritage = [] := by
    rw [List.filter_eq_nil_iff]
    intro d mem
    simp [apart (Concrete.is_iff.mp (h.typed d (Option.mem_toList.mp mem))) nofun nofun]
  have all : ∀ {o : Option Concrete} {j : Construct}, (∀ d, o = some d → d.is j = true) →
      j = .extendsClause ∨ j = .implementsClause → o.toList.filter isHeritage = o.toList := by
    intro o j known either
    rw [List.filter_eq_self]
    intro d mem
    have is := known d (Option.mem_toList.mp mem)
    rcases either with rfl | rfl <;> simp [isHeritage, is]
  rw [h.shape, List.filter_append, skipped, List.filter_cons, apart h.isName nofun nofun,
    List.filter_append, skippedTypes, List.filter_append, all h.extending (.inl rfl),
    List.filter_append, all h.implementing (.inr rfl), List.filter_cons,
    apart h.enclosed nofun nofun]
  simp

end ClassNodes

theorem fits_class {name : Sketch} {t : Option (List Sketch)} {hs : List Sketch}
    (ms : List Sketch) {text : String} (isName : name.kind = .identifier text)
    (free : ∀ s ∈ name :: (t.getD [] ++ hs), s.kind.isConstructor = false) :
    Fits (.classDeclaration 0 (t.map fun l => List.range' 1 l.length)
        (List.range' ((t.getD []).length + 1) hs.length)
        (List.range' ((t.getD []).length + hs.length + 1) ms.length))
      ((name :: (t.getD [] ++ hs) ++ ms).map Sketch.kind) where
  numbered := by
    simp only [NodeKind.children, getD_range']
    simp (disch := omega) only [range'_join, cons_range', List.range_eq_range']
    simp only [List.length_map, List.length_append, List.length_cons]
    congr 1
    omega
  named := by
    intro _ _ _ _ same
    cases same
    exact ⟨text, by simp [isName]⟩
  owned := by
    intro i part at_ constructor
    rw [NodeKind.members, List.mem_range'_1]
    rw [List.map_append, List.getElem?_append] at at_
    split at at_
    · obtain ⟨s, mem, rfl⟩ := List.mem_map.mp (List.mem_of_getElem? at_)
      rw [free s mem] at constructor
      cases constructor
    · rename_i behind
      obtain ⟨inside, -⟩ := List.getElem?_eq_some_iff.mp at_
      simp only [List.length_map, List.length_append, List.length_cons] at behind inside
      omega
  grouped := nofun
  spelled := nofun

theorem filled_class (site : Site) (name : Sketch) (t : Option (List Sketch))
    (hs ms : List Sketch) :
    (filled site do
        return .classDeclaration (← one name) (← optionalMany t) (← many hs) (← many ms)) =
      .node site (.classDeclaration 0 (t.map fun l => List.range' 1 l.length)
        (List.range' ((t.getD []).length + 1) hs.length)
        (List.range' ((t.getD []).length + hs.length + 1) ms.length))
        (name :: (t.getD [] ++ hs) ++ ms) := by
  have run : ∀ f : Filling NodeKind, filled site f = .node site (f []).1 (f []).2 := fun _ => rfl
  rw [run]
  simp only [run_bind, run_one, run_optionalMany, run_many, run_pure]
  simp

theorem identifier_kind (done : identifier c = .ok s) : ∃ text, s.kind = .identifier text := by
  obtain ⟨site, -, rfl⟩ := leaf_ok done
  exact ⟨c.text, rfl⟩

/-- A class is read from its own parts, wherever it stands. -/
theorem classDeclaration_heads (sound : Sound statement) {outer : Concrete} (formed : c.WellFormed)
    (known : c.construct? = some .classDeclaration)
    (done : classDeclaration statement c outer = .ok s) :
    ∃ ss, Member k c ss ∧ s.Heads outer.tokens ss := by
  obtain ⟨front, named, types, extended, implemented, inside, nodes⟩ :=
    exists_classNodes formed known
  have shape : c.nodes =
      (front ++ named :: (types.toList ++ (extended.toList ++ implemented.toList))) ++
        [inside] := by
    rw [nodes.shape]
    simp
  obtain ⟨_, found, done⟩ := bind_ok done
  rw [nodes.part?_typeIdentifier] at found
  cases lift_ok found
  obtain ⟨name, readName, done⟩ := bind_ok done
  obtain ⟨t, readTypes, done⟩ := bind_ok done
  obtain ⟨hs, readHeritage, done⟩ := bind_ok done
  obtain ⟨_, found, done⟩ := bind_ok done
  rw [nodes.part?_classBody] at found
  cases lift_ok found
  obtain ⟨ms, readMembers, done⟩ := bind_ok done
  obtain ⟨site, opens, rfl⟩ := sketch_ok done
  rw [nodes.filter_isHeritage] at readHeritage
  have partName := identifier_part (k := .classDeclaration)
    (formed.of_mem_nodes (by simp [shape])) nodes.isName (by simp) readName
  have partTypes := typeParameters_parts (k := .classDeclaration) formed readTypes
  rw [nodes.part?_typeParameters] at partTypes
  have partHeritage := Parts.of_forall₂ (forall₂_part (k := .classDeclaration)
    (fun d mem s read => heritageClause_part (formed.of_mem_nodes (by
      rw [shape]
      simp only [List.mem_append, List.mem_cons] at mem ⊢
      tauto)) read) (mapM_ok readHeritage))
  have member := classBody_member (k := .classDeclaration) sound
    (formed.of_mem_nodes (by simp [shape])) nodes.enclosed readMembers
  have head : Parts .classDeclaration
      (front ++ named :: (types.toList ++ (extended.toList ++ implemented.toList)))
      ([] ++ name :: (t.getD [] ++ hs)) :=
    (Parts.skipped fun d mem =>
      skips_decorator (Concrete.is_iff.mpr (nodes.decorators d mem))).append
        (.cons partName (partTypes.append partHeritage))
  obtain ⟨text, isName⟩ := identifier_kind readName
  have whole : Members .classDeclaration c.nodes ([] ++ name :: (t.getD [] ++ hs) ++ ms) := by
    rw [shape]
    exact .concat head member
  refine ⟨_, whole.whole known rfl nofun (.inl nofun), ?_⟩
  rw [filled_class]
  exact ⟨opens, rfl, fits_class ms isName head.free, rfl, rfl⟩

end Dartify.Abstraction
