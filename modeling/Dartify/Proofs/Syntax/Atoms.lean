import Mathlib.Data.List.Nodup
import Dartify.Literal.Decode
import Dartify.Proofs.Syntax.Slots
import Dartify.Proofs.Syntax.Source
import Dartify.Proofs.Text.Bytes
import Dartify.Tree.Kind

/-! The atoms of a concrete tree: its names and literals, each with its token. Some parts of a tree
are types and hold no values, and some are left out when the tree is read. Main statement: the
atoms of a text that was read stand apart, one behind the other. -/
namespace Dartify.Syntax

/-- A token and the construct that it makes up. -/
structure Atom where
  construct : Construct
  token : Token
deriving DecidableEq

/-- The kind of node that says what an atom says. -/
def Atom.kind (a : Atom) : NodeKind :=
  match a.construct with
  | .number => .numericLiteral a.token.text
  | .string => .stringLiteral (Literal.valueOf a.token.text)
  | .regex => .regularExpressionLiteral a.token.text
  | .trueLiteral => .trueKeyword
  | .falseLiteral => .falseKeyword
  | .nullLiteral => .nullKeyword
  | .thisLiteral => .thisKeyword
  | _ => .identifier a.token.text

/-- Constructs that say something about types. -/
def Construct.isTyping : Construct → Bool
  | ascription | predefinedType | typeIdentifier | genericType | typeArguments | typeParameters
  | typeParameter | constraint | defaultType | implementsClause => true
  | named construct =>
    construct == "type_predicate_annotation" || construct == "asserts_annotation"
  | _ => false

namespace Concrete

section

variable (skips : Construct → Concrete → Bool)

mutual

/-- The atoms of a tree in order, without those in parts that a test skips. The test is told what
a part belongs to. -/
def atoms : Concrete → List Atom
  | leaf _ => []
  | node k parts => if k.isAtom then (tokensOf parts).map (Atom.mk k) else atomsOf k parts

def atomsOf (k : Construct) : List Concrete → List Atom
  | [] => []
  | c :: cs => (if skips k c then [] else atoms c) ++ atomsOf k cs

end

/-- The atoms of a part, unless the test skips it. -/
def atomsIn (k : Construct) (c : Concrete) : List Atom := if skips k c then [] else c.atoms skips

end

/-- A part is about types, or it is the name of a method and not computed. -/
def isValueless (k : Construct) (c : Concrete) : Bool :=
  c.construct?.any (·.isTyping) ||
    (k == .method && (c.construct?.any (·.isAtom) || c.is (.named "private_property_identifier")))

/-- A part is left out: a decorator, or the value that the variable of a loop over keys starts
with. -/
def isLeftOut (k : Construct) (c : Concrete) : Bool :=
  c.is .decorator || (k == .forInStatement && c.is .initializer)

/-- The names and literals outside of types. -/
def values (c : Concrete) : List Atom := c.atoms isValueless

/-- The atoms that are not left out. -/
def retained (c : Concrete) : List Atom := c.atoms isLeftOut

/-- What two tests make of a part together. -/
def either (p q : Construct → Concrete → Bool) (k : Construct) (c : Concrete) : Bool :=
  p k c || q k c

/-- The values that are not left out. -/
def retainedValues (c : Concrete) : List Atom := c.atoms (either isValueless isLeftOut)

variable {skips p q : Construct → Concrete → Bool} {c : Concrete} {k : Construct}

theorem atomsOf_eq (k : Construct) (cs : List Concrete) :
    atomsOf skips k cs = (cs.filter isNode).flatMap (atomsIn skips k) := by
  induction cs with
  | nil => rfl
  | cons c cs ih =>
    rw [atomsOf, ih]
    cases c with
    | leaf t => simp [isNode, atoms]
    | node j parts => rfl

theorem atoms_eq_flatMap (known : c.construct? = some k) (free : k.isAtom = false) :
    c.atoms skips = c.nodes.flatMap (atomsIn skips k) := by
  cases c with
  | leaf t => cases known
  | node j parts =>
    cases known
    rw [atoms, free]
    exact atomsOf_eq k parts

theorem atoms_atom (atom : k.isAtom = true) (t : Token) :
    (node k [leaf t]).atoms skips = [⟨k, t⟩] := by
  simp [atoms, atom, tokensOf, tokens]

theorem atomsIn_sublist (k : Construct) (c : Concrete) :
    (atomsIn skips k c).Sublist (c.atoms skips) := by
  unfold atomsIn
  split
  · exact List.nil_sublist _
  · exact List.Sublist.refl _

mutual

theorem token_sublist : (c : Concrete) → ((c.atoms skips).map Atom.token).Sublist c.tokens
  | leaf t => List.nil_sublist _
  | node k parts => by
    rw [atoms, tokens]
    split
    · simp [Function.comp_def]
    · exact token_sublistOf k parts

theorem token_sublistOf (k : Construct) :
    (cs : List Concrete) → ((atomsOf skips k cs).map Atom.token).Sublist (tokensOf cs)
  | [] => List.nil_sublist _
  | c :: cs => by
    rw [atomsOf, tokensOf, List.map_append]
    refine .append ?_ (token_sublistOf k cs)
    split
    · exact List.nil_sublist _
    · exact token_sublist c

end

theorem token_mem {a : Atom} (mem : a ∈ c.atoms skips) : a.token ∈ c.tokens :=
  (token_sublist c).subset (List.mem_map_of_mem mem)

theorem token_memOf {a : Atom} {cs : List Concrete} (mem : a ∈ atomsOf skips k cs) :
    a.token ∈ tokensOf cs :=
  (token_sublistOf k cs).subset (List.mem_map_of_mem mem)

/-! Where no token occurs twice, an atom lies in one part, and what lets it through twice lets it
through together. -/

mutual

theorem eq_and_mem_atoms : (c : Concrete) → c.tokens.Nodup → ∀ {a b : Atom}, a ∈ c.atoms p →
    b ∈ c.atoms q → a.token = b.token → a = b ∧ a ∈ c.atoms (either p q)
  | leaf t, _, a, b, mem, _, _ => by cases mem
  | node k parts, once, a, b, mem, mem', same => by
    rw [atoms] at mem mem' ⊢
    split
    · rename_i atom
      rw [if_pos atom] at mem mem'
      obtain ⟨t, -, rfl⟩ := List.mem_map.mp mem
      obtain ⟨u, -, rfl⟩ := List.mem_map.mp mem'
      exact ⟨congrArg (Atom.mk k) same, mem⟩
    · rename_i free
      rw [if_neg free] at mem mem'
      exact eq_and_mem_atomsOf k parts once mem mem' same

theorem eq_and_mem_atomsOf (k : Construct) : (cs : List Concrete) → (tokensOf cs).Nodup →
    ∀ {a b : Atom}, a ∈ atomsOf p k cs → b ∈ atomsOf q k cs → a.token = b.token →
      a = b ∧ a ∈ atomsOf (either p q) k cs
  | [], _, a, b, mem, _, _ => by cases mem
  | c :: cs, once, a, b, mem, mem', same => by
    rw [tokensOf, List.nodup_append'] at once
    obtain ⟨here, there, apart⟩ := once
    rw [atomsOf, List.mem_append] at mem mem' ⊢
    rcases mem with mem | mem <;> rcases mem' with mem' | mem'
    · split at mem
      · cases mem
      · rename_i through
        split at mem'
        · cases mem'
        · rename_i through'
          rw [if_neg (by simp [either, through, through'])]
          have both := eq_and_mem_atoms c here mem mem' same
          exact ⟨both.1, .inl both.2⟩
    · split at mem
      · cases mem
      · exact absurd (same ▸ token_memOf mem') (apart (token_mem mem))
    · split at mem'
      · cases mem'
      · exact absurd (same ▸ token_memOf mem) (apart (token_mem mem'))
    · have both := eq_and_mem_atomsOf k cs there mem mem' same
      exact ⟨both.1, .inr both.2⟩

end

mutual

theorem either_sublist : (c : Concrete) → (c.atoms (either p q)).Sublist (c.atoms q)
  | leaf t => List.Sublist.refl _
  | node k parts => by
    rw [atoms, atoms]
    split
    · exact List.Sublist.refl _
    · exact either_sublistOf k parts

theorem either_sublistOf (k : Construct) :
    (cs : List Concrete) → (atomsOf (either p q) k cs).Sublist (atomsOf q k cs)
  | [] => List.Sublist.refl _
  | c :: cs => by
    rw [atomsOf, atomsOf]
    refine .append ?_ (either_sublistOf k cs)
    by_cases first : p k c = true
    · simp [either, first]
    · by_cases other : q k c = true
      · simp [either, other]
      · simp [either, first, other, either_sublist c]

end

theorem mem_retainedValues_iff {a : Atom} (once : c.tokens.Nodup) (value : a ∈ c.values) :
    a ∈ c.retainedValues ↔ a ∈ c.retained :=
  ⟨fun mem => (either_sublist c).subset mem, fun mem => (eq_and_mem_atoms c once value mem rfl).2⟩

end Concrete

/-! ## The tree of a text -/

theorem Token.behind_le_start (t : Token) : t.behind.offset ≤ t.start.offset := by
  rw [Token.start, Place.offset_after]
  omega

theorem Token.start_lt_stop {t : Token} (text : t.text ≠ "") : t.start.offset < t.stop.offset := by
  have some : Text.bytes t.text.toList ≠ 0 := by
    rw [Ne, Text.bytes_eq_zero_iff, String.toList_eq_nil_iff]
    exact text
  rw [Token.stop_eq, Place.offset_after]
  omega

theorem Token.Linked.text_ne {p q : Place} {ts : List Token} (linked : Linked p ts q) :
    ∀ t ∈ ts, t.text ≠ "" := by
  induction ts generalizing p with
  | nil => nofun
  | cons t ts ih =>
    obtain ⟨-, text, rest⟩ := linked
    exact List.forall_mem_cons.mpr ⟨text, ih rest⟩

/-- Linked tokens lie apart, one behind the other. -/
theorem Token.Linked.apart {p q : Place} {ts : List Token} (linked : Linked p ts q) :
    (∀ t ∈ ts, p.offset ≤ t.behind.offset) ∧ (∀ t ∈ ts, t.stop.offset ≤ q.offset) ∧
      p.offset ≤ q.offset ∧ ts.Pairwise fun t u => t.stop.offset ≤ u.behind.offset := by
  induction ts generalizing p with
  | nil =>
    cases linked
    exact ⟨nofun, nofun, Nat.le_refl _, .nil⟩
  | cons t ts ih =>
    obtain ⟨rfl, text, rest⟩ := linked
    obtain ⟨later, before, le, apart⟩ := ih rest
    have wide := Token.start_lt_stop text
    have trivia := t.behind_le_start
    refine ⟨List.forall_mem_cons.mpr ⟨Nat.le_refl _, fun u mem => ?_⟩,
      List.forall_mem_cons.mpr ⟨le, before⟩, by omega, List.pairwise_cons.mpr ⟨later, apart⟩⟩
    have after := later u mem
    omega

theorem Token.Linked.pairwise {p q : Place} {ts : List Token} (linked : Linked p ts q) :
    ts.Pairwise fun t u => t.start.offset < u.start.offset := by
  refine linked.apart.2.2.2.imp_of_mem fun {t u} mem _ apart => ?_
  have wide := Token.start_lt_stop (linked.text_ne t mem)
  have trivia := u.behind_le_start
  omega

end Dartify.Syntax

namespace Dartify.Grammar

open Syntax

variable {source : List Char}

/-- The tree of a text is that of a file, it is well formed, and its tokens stand one behind the
other. -/
theorem read?_spec {c : Concrete} (read : read? source = some c) :
    c.construct? = some .sourceFile ∧ c.WellFormed ∧
      c.tokens.Pairwise fun t u => t.start.offset < u.start.offset := by
  obtain ⟨here, rest, covers, -⟩ := exists_rest_of_read? read
  exact ⟨(exists_state_of_read? read).1, covers.formed.1, covers.linked_tokens.pairwise⟩

end Dartify.Grammar
