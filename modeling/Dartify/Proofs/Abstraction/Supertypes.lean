import Dartify.Abstraction.Declarations
import Dartify.Proofs.Abstraction.Reading
import Dartify.Proofs.Outcome

/-! Supertypes and their type arguments. Whether a value of an extends clause has type arguments
shows only at the node behind it. Main statement: the clause refers to its supertypes in order, each
by its own value and with its own type arguments. -/
namespace Dartify.Abstraction

open Syntax

/-! ## How supertypes are written -/

/-- Neither type arguments nor an expression that holds some. -/
def isBare (c : Concrete) : Bool := !c.is .typeArguments && !c.is .instantiation

/-- A supertype as it is written: a value alone, a value with type arguments behind it, or both as
one expression. -/
inductive Supertype where
  | alone (value : Concrete) (bare : isBare value = true)
  | followed (value list : Concrete) (bare : isBare value = true)
      (typing : list.is .typeArguments = true)
  | instantiated (whole value list : Concrete) (known : whole.is .instantiation = true)
      (first : whole.nodes.head? = some value) (typing : whole.part? .typeArguments = some list)

namespace Supertype

def nodes : Supertype → List Concrete
  | alone value _ => [value]
  | followed value list _ _ => [value, list]
  | instantiated whole .. => [whole]

def value : Supertype → Concrete
  | alone value _ => value
  | followed value .. => value
  | instantiated _ value .. => value

def list? : Supertype → Option Concrete
  | alone .. => none
  | followed _ list .. => some list
  | instantiated _ _ list .. => some list

theorem isBare_iff {c : Concrete} :
    isBare c = true ↔ c.is .typeArguments = false ∧ c.is .instantiation = false := by
  simp [isBare]

theorem not_typing_of_instantiation {c : Concrete} (known : c.is .instantiation = true) :
    c.is .typeArguments = false := by
  rw [Concrete.is_of_construct? (Concrete.is_iff.mp known)]
  rfl

def opensTyping (cs : List Concrete) : Bool := cs.head?.any (·.is .typeArguments)

theorem opensTyping_nodes (t : Supertype) (rest : List Concrete) :
    opensTyping (t.nodes ++ rest) = false := by
  cases t with
  | alone value bare => simpa [opensTyping, nodes] using (isBare_iff.mp bare).1
  | followed value list bare => simpa [opensTyping, nodes] using (isBare_iff.mp bare).1
  | instantiated whole value list known =>
    simpa [opensTyping, nodes] using not_typing_of_instantiation known

theorem carried_bare {value : Concrete} (bare : isBare value = true) :
    supertypeGroups.carried value = (value, none) := by
  simp [supertypeGroups.carried, (isBare_iff.mp bare).2]

theorem supertypeGroups_cons {first : Concrete} {rest : List Concrete}
    (known : first.is .typeArguments = false)
    (apart : opensTyping rest = false ∨ first.is .instantiation = true) :
    supertypeGroups (first :: rest) = supertypeGroups.carried first :: supertypeGroups rest := by
  cases rest with
  | nil => simp [supertypeGroups, known]
  | cons next more =>
    have left : (next.is .typeArguments && !first.is .instantiation) = false := by
      rcases apart with apart | whole
      · have other : next.is .typeArguments = false := by simpa [opensTyping] using apart
        simp [other]
      · simp [whole]
    simp [supertypeGroups, known, left]

/-- Type arguments behind an expression that holds some itself belong to nothing. -/
theorem supertypeGroups_further {whole list : Concrete} (known : whole.is .instantiation = true)
    (typing : list.is .typeArguments = true) (rest : List Concrete) :
    supertypeGroups (whole :: list :: rest) =
      supertypeGroups.carried whole :: supertypeGroups rest := by
  rw [supertypeGroups_cons (not_typing_of_instantiation known) (.inr known)]
  cases rest <;> simp [supertypeGroups, typing]

theorem supertypeGroups_nodes (t : Supertype) {rest : List Concrete}
    (apart : opensTyping rest = false) :
    supertypeGroups (t.nodes ++ rest) = (t.value, t.list?) :: supertypeGroups rest := by
  cases t with
  | alone value bare =>
    have known := (isBare_iff.mp bare).1
    rw [nodes, List.singleton_append, supertypeGroups_cons known (.inl apart), carried_bare bare]
    rfl
  | followed value list bare typing =>
    obtain ⟨known, single⟩ := isBare_iff.mp bare
    simp [nodes, supertypeGroups, known, single, typing, Supertype.value, list?]
  | instantiated whole value list known first typing =>
    have other := not_typing_of_instantiation known
    rw [nodes, List.singleton_append, supertypeGroups_cons other (.inr known)]
    simp [supertypeGroups.carried, known, first, typing, Supertype.value, list?]

theorem supertypeGroups_flatMap (ts : List Supertype) :
    supertypeGroups (ts.flatMap nodes) = ts.map fun t => (t.value, t.list?) := by
  induction ts with
  | nil => rfl
  | cons t ts ih =>
    -- No supertype begins with type arguments, so those of the next are not taken for this one.
    have apart : opensTyping (ts.flatMap nodes) = false := by
      cases ts with
      | nil => rfl
      | cons u ts => exact opensTyping_nodes u _
    rw [List.flatMap_cons, supertypeGroups_nodes t apart, ih, List.map_cons]

end Supertype

/-! ## What supertypes are read as -/

/-- A node of an arena is what a concrete tree is read as. -/
def ReadAt (a : Arena) (read : Concrete → Reading Sketch) (c : Concrete) (id : NodeId) : Prop :=
  ∃ s, read c = .ok s ∧ s.ShownAt a.entries id

theorem kind_of_entry {a : Arena} {id : NodeId} {e : Arena.Entry}
    (found : a.entries[id]? = some e) : a.nodes[id]?.map Node.kind = some e.kind := by
  rw [Arena.getElem?_entries, Option.map_eq_some_iff] at found
  obtain ⟨n, found, rfl⟩ := found
  rw [found]
  rfl

theorem forall₂_comp {α β γ : Type} {R : α → β → Prop} {S : β → γ → Prop} {xs : List α}
    {ys : List β} {zs : List γ} (h : List.Forall₂ R xs ys) (h' : List.Forall₂ S ys zs) :
    List.Forall₂ (fun x z => ∃ y, R x y ∧ S y z) xs zs := by
  induction h generalizing zs with
  | nil =>
    cases h'
    exact .nil
  | cons first rest ih =>
    cases h' with
    | cons first' rest' => exact .cons ⟨_, first, first'⟩ (ih rest')

namespace Supertype

/-- A node of an arena refers to a supertype: by its value, and with type arguments exactly if it
has some, the same and in order. -/
def ReferredAt (a : Arena) (t : Supertype) (id : NodeId) : Prop :=
  ∃ name arguments, a.nodes[id]?.map Node.kind = some (.typeReference name arguments) ∧
    ReadAt a expression t.value name ∧
    Option.Rel (fun list ids => List.Forall₂ (ReadAt a type) list.nodes ids) t.list? arguments

/-- A node of an arena is an extends clause of supertypes: it refers to each of them, in order and
by a node of its own, and to nothing else. -/
def ExtendedAt (a : Arena) (ts : List Supertype) (id : NodeId) : Prop :=
  ∃ ids, a.nodes[id]?.map Node.kind = some (.heritageClause .extends ids) ∧ ids.Nodup ∧
    List.Forall₂ (ReferredAt a) ts ids

/-- A supertype stands somewhere, and its value and its type arguments can be read. -/
structure Readable (t : Supertype) : Prop where
  stands : (site? t.value).isSome ∧ (site? (t.list?.getD t.value)).isSome
  value : ∃ s, expression t.value = .ok s
  arguments : ∀ list, t.list? = some list → ∀ c ∈ list.nodes, ∃ s, type c = .ok s

def read (t : Supertype) : Reading Sketch := supertype t.value t.list?

variable {t : Supertype} {s : Sketch} {a : Arena} {id : NodeId}

theorem filled_reference (site : Site) (name : Sketch) (arguments : Option (List Sketch)) :
    (Sketch.filled site do
        return .typeReference (← Sketch.Filling.one name)
          (← Sketch.Filling.optionalMany arguments)) =
      .node site (.typeReference 0 (arguments.map fun ss => List.range' 1 ss.length))
        (name :: arguments.getD []) := by
  cases arguments <;> rfl

theorem exists_of_read (done : t.read = .ok s) :
    ∃ site name arguments, expression t.value = .ok name ∧
      t.list?.mapM typeArguments = .ok arguments ∧
      s = .node site (.typeReference 0 (arguments.map fun ss => List.range' 1 ss.length))
        (name :: arguments.getD []) := by
  obtain ⟨site, -, done⟩ := bind_ok done
  obtain ⟨last, -, done⟩ := bind_ok done
  obtain ⟨name, readName, done⟩ := bind_ok done
  obtain ⟨arguments, readList, done⟩ := bind_ok done
  refine ⟨{ site with stop := last.stop }, name, arguments, readName, readList, ?_⟩
  rw [← filled_reference]
  exact (Except.ok.inj done).symm

theorem exists_arguments_iff :
    (∃ arguments, t.list?.mapM typeArguments = .ok arguments) ↔
      ∀ list, t.list? = some list → ∀ c ∈ list.nodes, ∃ s, type c = .ok s := by
  cases t.list? with
  | none => exact ⟨fun _ => nofun, fun _ => ⟨none, rfl⟩⟩
  | some list =>
    have inner : (∃ arguments, (some list).mapM typeArguments = .ok arguments) ↔
        ∃ ss, list.nodes.mapM type = .ok ss := by
      constructor
      · rintro ⟨arguments, done⟩
        obtain ⟨ss, done, -⟩ := bind_ok done
        exact ⟨ss, done⟩
      · rintro ⟨ss, done⟩
        refine ⟨some ss, ?_⟩
        rw [Option.mapM_some, typeArguments, done]
        rfl
    rw [inner, exists_mapM_iff]
    simp

theorem exists_read_iff : (∃ s, t.read = .ok s) ↔ t.Readable := by
  constructor
  · rintro ⟨s, done⟩
    obtain ⟨site, stands, done⟩ := bind_ok done
    obtain ⟨last, ends, done⟩ := bind_ok done
    obtain ⟨name, readName, done⟩ := bind_ok done
    obtain ⟨arguments, readList, done⟩ := bind_ok done
    refine ⟨⟨?_, ?_⟩, ⟨name, readName⟩, exists_arguments_iff.mp ⟨arguments, readList⟩⟩
    · simp [lift_ok stands]
    · simp [lift_ok ends]
  · rintro ⟨⟨stands, ends⟩, ⟨name, readName⟩, readable⟩
    obtain ⟨arguments, readList⟩ := exists_arguments_iff.mpr readable
    obtain ⟨site, stands⟩ := Option.isSome_iff_exists.mp stands
    obtain ⟨last, ends⟩ := Option.isSome_iff_exists.mp ends
    rw [read, supertype, stands, ends, readName, readList]
    exact ⟨_, rfl⟩

theorem referredAt_of_shownAt (done : t.read = .ok s) (shown : s.ShownAt a.entries id) :
    t.ReferredAt a id := by
  obtain ⟨site, name, arguments, readName, readList, rfl⟩ := exists_of_read done
  obtain ⟨place, here, -, below⟩ := shown.parts
  rw [List.length_cons, List.range_eq_range', List.range'_succ, List.map_cons] at below
  -- The value is the first part of the node, the type arguments are all the others.
  obtain ⟨named, listed⟩ := List.forall₂_cons.mp below
  refine ⟨place 0, _, kind_of_entry here, ⟨name, readName, named⟩, ?_⟩
  cases list : t.list? with
  | none =>
    rw [list] at readList
    cases readList
    exact .none
  | some types =>
    rw [list] at readList
    obtain ⟨ss, read, same⟩ := bind_ok readList
    cases same
    exact .some (forall₂_comp (mapM_ok read) listed)

/-! ## The clause -/

theorem filled_clause (site : Site) (types : List Sketch) :
    (Sketch.filled site do return .heritageClause .extends (← Sketch.Filling.many types)) =
      .node site (.heritageClause .extends (List.range types.length)) types := by
  rw [List.range_eq_range']
  rfl

theorem heritageClause_eq {c : Concrete} {ts : List Supertype}
    (known : c.construct? = some .extendsClause) (written : c.nodes = ts.flatMap nodes) :
    heritageClause c = (do
      let types ← ts.mapM read
      sketch c do return .heritageClause .extends (← .many types)) := by
  simp only [heritageClause, known, written, supertypeGroups_flatMap, List.mapM_map]
  rfl

end Supertype

/-- An extends clause is read exactly if it stands somewhere and each of its supertypes can be read,
and wherever it is stored it is then a clause of these supertypes. -/
theorem heritageClause_extendedAt {c : Concrete} {ts : List Supertype}
    (known : c.construct? = some .extendsClause) (written : c.nodes = ts.flatMap Supertype.nodes) :
    ((∃ s, heritageClause c = .ok s) ↔ (site? c).isSome ∧ ∀ t ∈ ts, t.Readable) ∧
      ∀ s, heritageClause c = .ok s → ∀ a : Arena,
        Supertype.ExtendedAt (s.store a).2 ts (s.store a).1 := by
  rw [Supertype.heritageClause_eq known written]
  refine ⟨?_, fun s done a => ?_⟩
  · have readable : (∀ t ∈ ts, t.Readable) ↔ ∃ types, ts.mapM Supertype.read = .ok types := by
      simp only [exists_mapM_iff, Supertype.exists_read_iff]
    rw [readable]
    constructor
    · rintro ⟨s, done⟩
      obtain ⟨types, read, done⟩ := bind_ok done
      obtain ⟨site, stands, -⟩ := bind_ok done
      exact ⟨by simp [lift_ok stands], types, read⟩
    · rintro ⟨stands, types, read⟩
      obtain ⟨site, stands⟩ := Option.isSome_iff_exists.mp stands
      rw [read]
      exact ⟨_, sketch_of_site stands⟩
  · obtain ⟨types, read, done⟩ := bind_ok done
    obtain ⟨site, -, rfl⟩ := sketch_ok done
    rw [Supertype.filled_clause]
    obtain ⟨place, here, ordered, below⟩ := (Sketch.shownAt_store _ a).parts
    refine ⟨_, kind_of_entry here, ordered.imp Nat.ne_of_lt, ?_⟩
    refine (forall₂_comp (mapM_ok read) below).imp ?_
    rintro t id ⟨s, done, shown⟩
    exact Supertype.referredAt_of_shownAt done shown

def wordAt (k : Construct) (offset : Nat) (text : String) : Concrete :=
  .node k [.leaf ⟨⟨offset, 0, offset⟩, [], .word, text⟩]

def symbolAt (offset : Nat) (text : String) : Concrete :=
  .leaf ⟨⟨offset, 0, offset⟩, [], .symbol, text⟩

def oneType : Concrete :=
  .node .typeArguments [symbolAt 12 "<", wordAt .typeIdentifier 13 "D", symbolAt 14 ">"]

def twoTypes : Concrete :=
  .node .typeArguments [symbolAt 18 "<", wordAt .typeIdentifier 19 "F", symbolAt 20 ",",
    wordAt .typeIdentifier 22 "G", symbolAt 23 ">"]

def instantiatedValue : Concrete := .node .instantiation [wordAt .identifier 17 "E", twoTypes]

/-- The clause `extends B, C<D>, E<F, G>`, its last supertype as one expression. -/
def threefold : Concrete :=
  .node .extendsClause [.leaf ⟨⟨0, 0, 0⟩, [], .word, "extends"⟩, wordAt .identifier 8 "B",
    symbolAt 9 ",", wordAt .identifier 11 "C", oneType, symbolAt 15 ",", instantiatedValue]

def threeSupertypes : List Supertype :=
  [.alone (wordAt .identifier 8 "B") rfl, .followed (wordAt .identifier 11 "C") oneType rfl rfl,
    .instantiated instantiatedValue (wordAt .identifier 17 "E") twoTypes rfl rfl rfl]

def threefoldKinds : List NodeKind :=
  [.identifier "B", .typeReference 0 none, .identifier "C", .identifier "D", .typeReference 3 none,
    .typeReference 2 (some [4]), .identifier "E", .identifier "F", .typeReference 7 none,
    .identifier "G", .typeReference 9 none, .typeReference 6 (some [8, 10]),
    .heritageClause .extends [1, 5, 11]]

theorem heritageClause_threefold :
    threefold.construct? = some .extendsClause ∧
      threefold.nodes = threeSupertypes.flatMap Supertype.nodes ∧
      (site? threefold).isSome ∧ (∀ t ∈ threeSupertypes, t.Readable) ∧
      ∃ s, heritageClause threefold = .ok s ∧
        (s.store .empty).2.nodes.toList.map Node.kind = threefoldKinds ∧
        Supertype.ExtendedAt (s.store .empty).2 threeSupertypes (s.store .empty).1 := by
  have read : (heritageClause threefold).toOption.any (fun s =>
      (s.store .empty).2.nodes.toList.map Node.kind = threefoldKinds) = true := by
    decide
  obtain ⟨s, done, kinds⟩ := exists_ok_of_any read
  obtain ⟨readable, extended⟩ := @heritageClause_extendedAt threefold threeSupertypes rfl rfl
  obtain ⟨stands, each⟩ := readable.mp ⟨s, done⟩
  exact ⟨rfl, rfl, stands, each, s, done, of_decide_eq_true kinds, extended s done .empty⟩

end Dartify.Abstraction
