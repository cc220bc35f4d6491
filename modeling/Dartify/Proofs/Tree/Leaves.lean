import Dartify.Proofs.Abstraction.Statements
import Dartify.Proofs.Outcome
import Dartify.Proofs.Tree.Proper

/-! The leaves of the tree of a text. Main statement: if every construct has a counterpart, a name
or a literal outside of types has exactly one leaf, unless it is left out with a decorator or with
the value that the variable of a loop over keys starts with; then it has none. -/
namespace Dartify

open Syntax

namespace Sketch

theorem relabel_of_isWord {k : NodeKind} (word : k.isWord = true) (f : NodeId → NodeId) :
    k.relabel f = k := by
  cases k <;> first | rfl | cases word

theorem isWord_relabel (f : NodeId → NodeId) (k : NodeKind) :
    (k.relabel f).isWord = k.isWord := by
  cases k <;> rfl

mutual

/-- The leaves keep their order when a sketch is stored. -/
theorem filter_layout : (s : Sketch) → ∀ start,
    (s.layout start).filter (·.kind.isWord) = s.words
  | node site kind parts, start => by
    rw [layout, words, List.filter_append, filter_layoutAll parts, List.filter_singleton]
    simp only [isWord_relabel]
    cases word : kind.isWord with
    | true => simp [relabel_of_isWord word]
    | false => simp

theorem filter_layoutAll : (ss : List Sketch) → ∀ start,
    (layoutAll ss start).filter (·.kind.isWord) = wordsOf ss
  | [], _ => rfl
  | s :: ss, start => by
    rw [layoutAll, wordsOf, List.filter_append, filter_layout s, filter_layoutAll ss]

end

end Sketch

/-- A node is the leaf of an atom: it says what the atom says, where its token stands. -/
def Tree.IsLeafOf (t : Tree) (id : NodeId) (a : Atom) : Prop :=
  ∃ n, t.node? id = some n ∧ Sketch.IsAtom a ⟨n.kind, n.site⟩

theorem Tree.isLeafOf_iff {t : Tree} {id : NodeId} {a : Atom} :
    t.IsLeafOf id a ↔ ∃ e, t.arena.entries[id]? = some e ∧ Sketch.IsAtom a e := by
  rw [Arena.getElem?_entries]
  constructor
  · rintro ⟨n, found, leaf⟩
    exact ⟨_, by rw [show t.arena.nodes[id]? = some n from found]; rfl, leaf⟩
  · rintro ⟨e, found, leaf⟩
    obtain ⟨n, here, rfl⟩ := Option.map_eq_some_iff.mp found
    exact ⟨n, here, leaf⟩

/-! ## Atoms and leaves in step -/

theorem exists_of_forall₂ {α β : Type} {R : α → β → Prop} {as : List α} {bs : List β}
    (h : List.Forall₂ R as bs) {a : α} (mem : a ∈ as) : ∃ b ∈ bs, R a b := by
  induction h with
  | nil => cases mem
  | cons first rest ih =>
    rcases List.mem_cons.mp mem with rfl | mem
    · exact ⟨_, List.mem_cons_self, first⟩
    · obtain ⟨b, known, holds⟩ := ih mem
      exact ⟨b, List.mem_cons_of_mem _ known, holds⟩

/-- Of tokens that stand one behind the other, no two start at one place. -/
theorem eq_of_start_eq {ts : List Token}
    (apart : ts.Pairwise fun t u => t.start.offset < u.start.offset) {t u : Token} (mem : t ∈ ts)
    (mem' : u ∈ ts) (start : t.start.offset = u.start.offset) : t = u := by
  induction apart with
  | nil => cases mem
  | cons first _ ih =>
    rcases List.mem_cons.mp mem with rfl | later <;> rcases List.mem_cons.mp mem' with rfl | later'
    · rfl
    · exact absurd start (Nat.ne_of_lt (first u later'))
    · exact absurd start (Nat.ne_of_gt (first t later))
    · exact ih later later'

/-- The leaves of a tree are those of some atoms, in order. -/
def Tree.Leaves (t : Tree) (as : List Atom) : Prop :=
  List.Forall₂ Sketch.IsAtom as (t.arena.entries.filter (·.kind.isWord))

namespace Tree.Leaves

variable {t : Tree} {as : List Atom} {a : Atom} {i j : NodeId}

theorem exists_leaf (leaves : t.Leaves as) (mem : a ∈ as) : ∃ id, t.IsLeafOf id a := by
  obtain ⟨e, known, leaf⟩ := exists_of_forall₂ leaves mem
  obtain ⟨id, at_⟩ := List.mem_iff_getElem?.mp (List.mem_filter.mp known).1
  exact ⟨id, isLeafOf_iff.mpr ⟨e, at_, leaf⟩⟩

/-- What has a leaf starts where one of the atoms does. -/
theorem exists_atom (leaves : t.Leaves as) (leaf : t.IsLeafOf i a) :
    ∃ b ∈ as, a.token.start.offset = b.token.start.offset := by
  obtain ⟨e, at_, leaf⟩ := isLeafOf_iff.mp leaf
  have word : e.kind.isWord = true := by
    rw [leaf.kind]
    exact Abstraction.isWord_atom a
  obtain ⟨b, mem, leaf'⟩ := exists_of_forall₂ (List.Forall₂.flip leaves)
    (List.mem_filter.mpr ⟨List.mem_of_getElem? at_, word⟩)
  exact ⟨b, mem, leaf.start.symm.trans leaf'.start⟩

/-- Leaves of atoms that stand one behind the other do so themselves. -/
theorem pairwise (leaves : t.Leaves as)
    (apart : as.Pairwise fun a b => a.token.start.offset < b.token.start.offset) :
    (t.arena.entries.filter (·.kind.isWord)).Pairwise fun d e => d.site.start < e.site.start := by
  unfold Leaves at leaves
  generalize t.arena.entries.filter (·.kind.isWord) = es at leaves ⊢
  induction leaves with
  | nil => exact .nil
  | cons first rest ih =>
    rw [List.pairwise_cons] at apart ⊢
    refine ⟨?_, ih apart.2⟩
    intro e mem
    obtain ⟨b, known, leaf⟩ := exists_of_forall₂ rest.flip mem
    rw [first.start, leaf.start]
    exact apart.1 b known

theorem unique (leaves : t.Leaves as)
    (apart : as.Pairwise fun a b => a.token.start.offset < b.token.start.offset)
    (leaf : t.IsLeafOf i a) (leaf' : t.IsLeafOf j a) : i = j := by
  have ordered := leaves.pairwise apart
  rw [List.pairwise_filter, List.pairwise_iff_getElem] at ordered
  obtain ⟨d, at_, leaf⟩ := isLeafOf_iff.mp leaf
  obtain ⟨e, at', leaf'⟩ := isLeafOf_iff.mp leaf'
  obtain ⟨bound, rfl⟩ := List.getElem?_eq_some_iff.mp at_
  obtain ⟨bound', rfl⟩ := List.getElem?_eq_some_iff.mp at'
  have word := Abstraction.isWord_atom a
  -- Both leaves start where the atom does, but of two leaves one starts behind the other.
  have same := leaf.start.trans leaf'.start.symm
  by_contra other
  rcases Nat.lt_or_gt_of_ne other with less | less
  · have strict := ordered i j bound bound' less (leaf.kind ▸ word) (leaf'.kind ▸ word)
    exact Nat.ne_of_lt strict same
  · have strict := ordered j i bound' bound less (leaf'.kind ▸ word) (leaf.kind ▸ word)
    exact Nat.ne_of_gt strict same

end Tree.Leaves

/-! ## The leaf of a value -/

theorem supported_of_tree {s : Sketch} {fileName : String} {text : List Char}
    (numbered : s.Everywhere Sketch.Numbered)
    (supported : ∀ id construct, (s.tree fileName text).Below (s.tree fileName text).root id →
      (s.tree fileName text).kind? id ≠ some (.unsupported construct)) : s.Supported := by
  refine Sketch.everywhere_of_layout (fun k f same => ?_) s 0 ?_
  · cases k <;> first | rfl | cases same
  · intro e mem
    obtain ⟨id, at_⟩ := List.mem_iff_getElem?.mp mem
    have inside : id < s.size := by
      rw [← Sketch.length_layout s 0]
      exact (List.getElem?_eq_some_iff.mp at_).1
    have below := s.below_root fileName text numbered inside
    cases shape : e.kind with
    | unsupported construct =>
      refine absurd ?_ (supported id construct below)
      rw [Sketch.kind?_tree, at_, Option.map_some, shape]
    | _ => rfl

/-- If every construct of a text has a counterpart, the leaves of the tree are those of some atoms,
at least of the values that are not left out and at most of what is not left out. -/
theorem exists_leaves {fileName : String} {text : List Char} {tree : Tree} {c : Concrete}
    (ok : Tree.ofText fileName text = .ok tree) (read : Grammar.read? text = some c)
    (supported : ∀ id construct, tree.Below tree.root id →
      tree.kind? id ≠ some (.unsupported construct)) :
    (∀ id a, tree.IsLeafOf id a → tree.Below tree.root id) ∧
      ∃ as, c.retainedValues.Sublist as ∧ as.Sublist c.retained ∧ tree.Leaves as := by
  obtain ⟨c', s, here, rest, read', -, -, rfl, isFile⟩ := Tree.exists_sketch_of_ofText ok
  rw [read] at read'
  cases read'
  have numbered : s.Everywhere Sketch.Numbered :=
    isFile.fits.imp fun _ _ h => h.numbered
  constructor
  · rintro id a ⟨n, found, -⟩
    refine s.below_root fileName text numbered ?_
    rw [← Sketch.size_tree s fileName text]
    exact (Array.getElem?_eq_some_iff.mp found).1
  · obtain ⟨as, lower, upper, are⟩ := isFile.words (supported_of_tree numbered supported)
    refine ⟨as, lower, upper, ?_⟩
    rw [← Sketch.filter_layout s 0] at are
    rw [Tree.Leaves, Sketch.entries_tree]
    exact are

/-- If every construct of a text has a counterpart, a name or a literal outside of types has
exactly one leaf, unless it is left out; then it has none. -/
theorem existsUnique_leaf_iff {fileName : String} {text : List Char} {tree : Tree} {c : Concrete}
    (ok : Tree.ofText fileName text = .ok tree) (read : Grammar.read? text = some c)
    (supported : ∀ id construct, tree.Below tree.root id →
      tree.kind? id ≠ some (.unsupported construct)) {a : Atom} (value : a ∈ c.values) :
    ((∃! id, tree.Below tree.root id ∧ tree.IsLeafOf id a) ↔ a ∈ c.retained) ∧
      (a ∉ c.retained → ∀ id, ¬ tree.IsLeafOf id a) := by
  obtain ⟨reached, as, lower, upper, leaves⟩ := exists_leaves ok read supported
  obtain ⟨-, -, tokensApart⟩ := Grammar.read?_spec read
  have once : c.tokens.Nodup := tokensApart.imp fun less => by
    rintro rfl
    exact Nat.lt_irrefl _ less
  have atomsApart : as.Pairwise fun a b => a.token.start.offset < b.token.start.offset := by
    have tokens : (as.map Atom.token).Pairwise fun t u => t.start.offset < u.start.offset :=
      tokensApart.sublist ((upper.map Atom.token).trans (Concrete.token_sublist c))
    rw [List.pairwise_map] at tokens
    exact tokens
  -- An atom that has a leaf is one of those that were read, and these are not left out.
  have retained_of_leaf : ∀ id, tree.IsLeafOf id a → a ∈ c.retained := by
    intro id leaf
    obtain ⟨b, mem, start⟩ := leaves.exists_atom leaf
    have kept := upper.subset mem
    have same := eq_of_start_eq tokensApart (Concrete.token_mem value) (Concrete.token_mem kept)
      start
    obtain ⟨rfl, -⟩ := Concrete.eq_and_mem_atoms c once value kept same
    exact kept
  refine ⟨⟨?_, ?_⟩, ?_⟩
  · rintro ⟨id, ⟨-, leaf⟩, -⟩
    exact retained_of_leaf id leaf
  · intro kept
    have mem := lower.subset ((Concrete.mem_retainedValues_iff once value).mpr kept)
    obtain ⟨id, leaf⟩ := leaves.exists_leaf mem
    refine ⟨id, ⟨reached id a leaf, leaf⟩, ?_⟩
    rintro id' ⟨-, leaf'⟩
    exact leaves.unique atomsApart leaf' leaf
  · intro out id leaf
    exact out (retained_of_leaf id leaf)

/-- A loop over keys whose variable starts with a value. -/
def startingLoop : String := "for (var k = f() in o) g;"

theorem unsupported_of_entries {t : Tree}
    (supported : t.arena.entries.all (!·.kind.isUnsupported) = true) (id : NodeId)
    (construct : String) : t.kind? id ≠ some (.unsupported construct) := by
  intro kind
  rw [Arena.kind?_eq_entries] at kind
  obtain ⟨e, at_, shape⟩ := Option.map_eq_some_iff.mp kind
  have known := List.all_eq_true.mp supported e (List.mem_of_getElem? at_)
  rw [shape] at known
  cases known

/-- The body of the loop has a leaf for its name, and the value that is left out has none. -/
theorem existsUnique_leaf_body :
    ∃ tree c, Tree.ofText "a.ts" startingLoop.toList = .ok tree ∧
      Grammar.read? startingLoop.toList = some c ∧
      (∃ a ∈ c.values, a.token.text = "g" ∧ ∃! id, tree.Below tree.root id ∧ tree.IsLeafOf id a) ∧
      ∃ a ∈ c.values, a.token.text = "f" ∧ ∀ id, ¬ tree.IsLeafOf id a := by
  have built : (Tree.ofText "a.ts" startingLoop.toList).toOption.any
      (fun tree => tree.arena.entries.all (!·.kind.isUnsupported)) = true := by
    decide +kernel
  have parsed : (Grammar.read? startingLoop.toList).any (fun c =>
      (∃ a ∈ c.values, a.token.text = "g" ∧ a ∈ c.retained) ∧
        ∃ a ∈ c.values, a.token.text = "f" ∧ a ∉ c.retained) = true := by
    decide +kernel
  obtain ⟨tree, ok, supported⟩ := exists_ok_of_any built
  obtain ⟨c, read, facts⟩ := (Option.any_eq_true _ _).mp parsed
  obtain ⟨⟨a, mem, text, kept⟩, b, mem', text', out⟩ := of_decide_eq_true facts
  have known := fun id construct (_ : tree.Below tree.root id) =>
    unsupported_of_entries supported id construct
  exact ⟨tree, c, ok, read,
    ⟨a, mem, text, (existsUnique_leaf_iff ok read known mem).1.mpr kept⟩,
    b, mem', text', (existsUnique_leaf_iff ok read known mem').2 out⟩

/-- Nothing in the loop lacks a counterpart, and yet the name in the value that its variable starts
with has no leaf. -/
theorem startingLoop_drops :
    ∃ tree c, Tree.ofText "a.ts" startingLoop.toList = .ok tree ∧
      Grammar.read? startingLoop.toList = some c ∧
      (∀ id construct, tree.kind? id ≠ some (.unsupported construct)) ∧
      ∃ a ∈ c.values, a.kind = .identifier "f" ∧ ¬ ∃ id, tree.IsLeafOf id a := by
  have built : (Tree.ofText "a.ts" startingLoop.toList).toOption.any (fun tree =>
      tree.arena.entries.all (!·.kind.isUnsupported) &&
        tree.arena.entries.all (·.kind ≠ .identifier "f")) = true := by
    decide +kernel
  have parsed : (Grammar.read? startingLoop.toList).any (fun c =>
      ∃ a ∈ c.values, a.kind = .identifier "f") = true := by
    decide +kernel
  obtain ⟨tree, ok, facts⟩ := exists_ok_of_any built
  obtain ⟨supported, absent⟩ := Bool.and_eq_true_iff.mp facts
  obtain ⟨c, read, named⟩ := (Option.any_eq_true _ _).mp parsed
  obtain ⟨a, mem, kind⟩ := of_decide_eq_true named
  refine ⟨tree, c, ok, read, unsupported_of_entries supported, a, mem, kind, ?_⟩
  rintro ⟨id, leaf⟩
  obtain ⟨e, at_, leaf⟩ := Tree.isLeafOf_iff.mp leaf
  have other := List.all_eq_true.mp absent e (List.mem_of_getElem? at_)
  exact of_decide_eq_true other (leaf.kind.trans kind)

end Dartify
