import Mathlib.Algebra.BigOperators.Group.Finset.Piecewise
import Dartify.Proofs.Dart.Lacking

/-! The commas of a program. A list with a comma between any two neighbours has one less than it has
elements; the lists of statements, members, clauses and variables have none. Main statement: the
commas that are written are those of the lists below the root, and one for each comma operator. -/
namespace Dartify

theorem NodeKind.isSequence_iff {k : NodeKind} :
    k.isSequence = true ↔ ∃ left right, k = .binary left .comma right := by
  constructor
  · intro sequence
    cases k with
    | binary left operator right => exact ⟨left, right, by rw [of_decide_eq_true sequence]⟩
    | _ => cases sequence
  · rintro ⟨left, right, rfl⟩
    rfl

namespace Tree

def commaList (t : Tree) (id : NodeId) : List NodeId :=
  ((t.kind? id).map (·.commaList)).getD []

open Classical in
/-- The nodes below the root that are joined by the comma operator. -/
noncomputable def sequences (t : Tree) : Finset NodeId :=
  {id ∈ t.reached | ∃ left right, t.kind? id = some (.binary left .comma right)}

open Classical in
theorem commas_eq (t : Tree) (id : NodeId) :
    t.commas id = ((t.commaList id).length - 1) +
      if ∃ left right, t.kind? id = some (.binary left .comma right) then 1 else 0 := by
  unfold commas commaList
  cases t.kind? id with
  | none => simp
  | some k => simp only [Option.map_some, Option.getD_some, NodeKind.commas,
      NodeKind.isSequence_iff, Option.some.injEq]

theorem sum_commas (t : Tree) :
    ∑ id ∈ t.reached, t.commas id =
      ∑ id ∈ t.reached, ((t.commaList id).length - 1) + t.sequences.card := by
  simp only [commas_eq, Finset.sum_add_distrib, sequences, Finset.card_filter]

end Tree

namespace Dart

variable {t : Tree}

def commasIn (text : String) : Nat := (text.toList.filter (· == ',')).length

theorem commasIn_vocabulary : ∀ word ∈ vocabulary, word ≠ "," → commasIn word = 0 := by
  decide

theorem weigh_commasIn {texts : List String}
    (lacks : ∀ text ∈ texts, text.toList.filter (· == ',') = []) : weigh commasIn texts = 0 := by
  rw [weigh, List.sum_eq_zero]
  intro n mem
  obtain ⟨text, inside, rfl⟩ := List.mem_map.mp mem
  rw [commasIn, lacks text inside, List.length_nil]

/-- A tree whose own texts have no comma is written with as many commas as its lists and its comma
operators ask for. -/
theorem count_comma_emit (built : t.Built) (once : t.ChildrenOnce) (named : t.ClassesNamed)
    (lacks : t.Lacks (· == ',')) {pieces : List Piece} (ok : emit t = .ok pieces) :
    (render pieces).toList.count ',' =
      ∑ id ∈ t.reached, ((t.commaList id).length - 1) + t.sequences.card := by
  obtain ⟨done, rfl⟩ := emit_eq_writes ok
  have written : ((codes (wholeCourse t).steps).flatMap (·.toList.filter (· == ','))).length =
      weigh commasIn (codes (wholeCourse t).steps) := by
    rw [List.length_flatMap]
    rfl
  have own : ∀ id, weigh commasIn (t.classText? id).toList +
      weigh commasIn (t.leafToken? id).toList + t.commas id * commasIn "," = t.commas id := by
    intro id
    have name : weigh commasIn (t.classText? id).toList = 0 :=
      weigh_commasIn fun text mem => lacks.classText (Option.mem_toList.mp mem)
    have leaf : weigh commasIn (t.leafToken? id).toList = 0 :=
      weigh_commasIn fun text mem => lacks.leafToken (by decide) (Option.mem_toList.mp mem)
    have one : commasIn "," = 1 := rfl
    rw [name, leaf, one]
    omega
  rw [List.count, List.countP_eq_length_filter, filter_writes lacks rfl rfl, written,
    weigh_wholeCourse commasIn_vocabulary built once named done, ← t.sum_commas]
  exact Finset.sum_congr rfl fun id _ => own id

/-- One comma between the arguments of a call, and one for the operator. -/
theorem count_comma_callingClass :
    callingClass.Built ∧ callingClass.ChildrenOnce ∧ callingClass.ClassesNamed ∧
      callingClass.Lacks (· == ',') ∧
      ∃ pieces, emit callingClass = .ok pieces ∧ (render pieces).toList.count ',' = 2 ∧
        (render pieces).toList.count ',' =
          ∑ id ∈ callingClass.reached, ((callingClass.commaList id).length - 1) +
            callingClass.sequences.card := by
  have lacks : callingClass.Lacks (· == ',') := by decide
  obtain ⟨pieces, ok, rendered⟩ := emit_callingClass
  have two : (render pieces).toList.count ',' = 2 := by
    rw [rendered]
    decide
  exact ⟨built_callingClass, childrenOnce_callingClass, classesNamed_callingClass, lacks, pieces,
    ok, two, count_comma_emit built_callingClass childrenOnce_callingClass classesNamed_callingClass
      lacks ok⟩

end Dart

end Dartify
