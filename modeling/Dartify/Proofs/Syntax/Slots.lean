import Mathlib.Data.List.TakeWhile
import Dartify.Syntax.Grouping

/-! What a well-formed node consists of: an atom of its one token, any other construct of the
nodes that fill the slots of its production. -/
namespace Dartify.Syntax

namespace Slot

variable {test : Concrete → Bool} {slots : List Slot} {cs : List Concrete}

theorem eq_nil_of_fill (filled : fill [] cs = true) : cs = [] := by
  cases cs with
  | nil => rfl
  | cons c cs => cases filled

theorem exists_of_fill_one (filled : fill (.one test :: slots) cs = true) :
    ∃ c rest, cs = c :: rest ∧ test c = true ∧ fill slots rest = true := by
  cases cs with
  | nil => cases filled
  | cons c cs =>
    rw [fill, Bool.and_eq_true] at filled
    exact ⟨c, cs, rfl, filled.1, filled.2⟩

theorem exists_of_fill_maybe (filled : fill (.maybe test :: slots) cs = true) :
    ∃ (c : Option Concrete) (rest : _), cs = c.toList ++ rest ∧ (∀ d, c = some d → test d = true) ∧
      fill slots rest = true := by
  cases cs with
  | nil => exact ⟨none, [], rfl, nofun, filled⟩
  | cons c cs =>
    rw [fill] at filled
    split at filled
    · rename_i passes
      exact ⟨some c, cs, rfl, fun d same => Option.some.inj same ▸ passes, filled⟩
    · exact ⟨none, c :: cs, rfl, nofun, filled⟩

theorem exists_of_fill_many (filled : fill (.many test :: slots) cs = true) :
    ∃ front rest, cs = front ++ rest ∧ (∀ d ∈ front, test d = true) ∧ fill slots rest = true := by
  refine ⟨cs.takeWhile test, cs.dropWhile test, List.takeWhile_append_dropWhile.symm, ?_, filled⟩
  intro d mem
  exact List.mem_takeWhile_imp mem

end Slot

namespace Concrete

theorem tokensOf_sublist {cs ds : List Concrete} (sub : cs.Sublist ds) :
    (tokensOf cs).Sublist (tokensOf ds) := by
  induction sub with
  | slnil => exact .slnil
  | cons d sub ih => exact ih.trans (List.sublist_append_right _ _)
  | cons_cons d sub ih => exact ih.append_left _

theorem tokensOf_parts_sublist (c : Concrete) : (tokensOf c.parts).Sublist c.tokens := by
  cases c with
  | leaf t => exact List.nil_sublist _
  | node k parts => exact .refl _

theorem tokensOf_nodes_sublist (c : Concrete) : (tokensOf c.nodes).Sublist c.tokens :=
  (tokensOf_sublist List.filter_sublist).trans c.tokensOf_parts_sublist

variable {c : Concrete} {j k : Construct}

theorem is_iff : c.is k = true ↔ c.construct? = some k := by simp [is]

theorem is_of_construct? (known : c.construct? = some j) : c.is k = decide (j = k) := by
  rw [Bool.eq_iff_iff, is_iff, known]
  simp

theorem statesResult_of_construct? (known : c.construct? = some j) :
    c.statesResult = (decide (j = .ascription) || decide (j = .named "type_predicate_annotation") ||
      decide (j = .named "asserts_annotation")) := by
  simp [statesResult, is_of_construct? known]

theorem part?_eq (c : Concrete) (k : Construct) : c.part? k = c.nodes.find? (·.is k) := by
  rw [part?, nodes, List.find?_filter]
  congr 1
  funext p
  cases p with
  | leaf t => rfl
  | node j parts => simp [isNode]

theorem part?_spec {d : Concrete} (found : c.part? k = some d) :
    d ∈ c.nodes ∧ d.construct? = some k := by
  rw [part?_eq] at found
  have known := List.find?_some found
  exact ⟨List.mem_of_find?_eq_some found, is_iff.mp known⟩

/-- A node of which nothing more is known than that it is no clause. -/
theorem exists_of_isMain (main : c.isMain = true) :
    ∃ k, c.construct? = some k ∧ k.isClause = false := by
  rw [isMain, Option.any_eq_true_iff_get] at main
  obtain ⟨some, free⟩ := main
  exact ⟨_, (Option.some_get some).symm, by simpa using free⟩

theorem is_of_isMain (main : c.isMain = true) (clause : k.isClause = true) : c.is k = false := by
  obtain ⟨j, known, free⟩ := exists_of_isMain main
  rw [is_of_construct? known, decide_eq_false_iff_not]
  rintro rfl
  rw [clause] at free
  cases free

theorem find?_toList_of_is {o : Option Concrete} (known : ∀ d, o = some d → d.is j = true) :
    o.toList.find? (·.is k) = if j = k then o else none := by
  cases o with
  | none => simp
  | some d =>
    have here := known d rfl
    rw [is_iff] at here
    by_cases same : j = k <;> simp [is_of_construct? here, same]

theorem find?_toList_none {o : Option Concrete} {test : Concrete → Bool}
    (fails : ∀ d, o = some d → test d = false) : o.toList.find? test = none := by
  refine List.find?_eq_none.mpr fun d mem => ?_
  simp [fails d (Option.mem_toList.mp mem)]

theorem find?_toList_self {o : Option Concrete} {test : Concrete → Bool}
    (passes : ∀ d, o = some d → test d = true) : o.toList.find? test = o := by
  cases o with
  | none => rfl
  | some d => simp [passes d rfl]

/-- What a function returns is stated by one of three constructs. -/
theorem exists_of_statesResult (states : c.statesResult = true) :
    ∃ k, c.construct? = some k ∧ (k = .ascription ∨ k = .named "type_predicate_annotation" ∨
      k = .named "asserts_annotation") := by
  simp only [statesResult, Bool.or_eq_true, is_iff] at states
  rcases states with (known | known) | known
  · exact ⟨_, known, .inl rfl⟩
  · exact ⟨_, known, .inr (.inl rfl)⟩
  · exact ⟨_, known, .inr (.inr rfl)⟩

namespace WellFormed

theorem admits (formed : c.WellFormed) (known : c.construct? = some k) :
    Concrete.admits k c.parts = true ∧ ∀ p ∈ c.parts, p.WellFormed := by
  cases c with
  | leaf t => cases known
  | node j parts =>
    cases known
    exact ⟨formed.1, allWellFormed_iff.mp formed.2⟩

theorem of_mem_parts (formed : c.WellFormed) {p : Concrete} (mem : p ∈ c.parts) :
    p.WellFormed := by
  cases c with
  | leaf t => cases mem
  | node j parts => exact allWellFormed_iff.mp formed.2 p mem

theorem of_mem_nodes (formed : c.WellFormed) {p : Concrete} (mem : p ∈ c.nodes) :
    p.WellFormed :=
  formed.of_mem_parts (List.mem_filter.mp mem |>.1)

theorem atom (formed : c.WellFormed) (known : c.construct? = some k) (atom : k.isAtom = true) :
    ∃ t, c = .node k [.leaf t] ∧ t.suits k = true := by
  have fits := (Bool.and_eq_true_iff.mp (formed.admits known).1).1
  cases c with
  | leaf t => cases known
  | node j parts =>
    cases known
    simp only [Concrete.fits, atom, if_true, Concrete.parts] at fits
    split at fits
    · rename_i t
      exact ⟨t, rfl, fits⟩
    · cases fits

theorem fill (formed : c.WellFormed) (known : c.construct? = some k) (free : k.isAtom = false)
    {slots : List Slot} (production : k.slots? = some slots) : Slot.fill slots c.nodes = true := by
  have fits := (Bool.and_eq_true_iff.mp (formed.admits known).1).1
  simp only [Concrete.fits, free, production] at fits
  exact fits

theorem groups (formed : c.WellFormed) (known : c.construct? = some k) :
    Concrete.groups k c.parts = true :=
  (Bool.and_eq_true_iff.mp (formed.admits known).1).2

end WellFormed

end Concrete

end Dartify.Syntax
