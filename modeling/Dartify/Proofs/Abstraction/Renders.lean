import Mathlib.Data.List.Forall2
import Dartify.Proofs.Abstraction.Along
import Dartify.Proofs.Syntax.Atoms
import Dartify.Proofs.Tree.Stored

/-! What is said of the sketches that concrete trees are read as. Every node refers to its parts in
order and meets the conditions of its kind, the nodes begin at tokens of the concrete tree, in
order, and unless something has no counterpart, the leaves are the atoms of the concrete tree, in
order, at least those of its values that are not left out and at most those that are not left
out. -/
namespace Dartify

open Syntax

namespace NodeKind

/-- Names, literals and the words that are expressions. -/
def isWord : NodeKind → Bool
  | identifier _ | numericLiteral _ | stringLiteral _ | regularExpressionLiteral _
  | trueKeyword | falseKeyword | nullKeyword | thisKeyword => true
  | _ => false

def isUnsupported : NodeKind → Bool
  | unsupported _ => true
  | _ => false

def isConstructor : NodeKind → Bool
  | constructor .. => true
  | _ => false

/-- The members of a class. -/
def members : NodeKind → List NodeId
  | classDeclaration _ _ _ members => members
  | _ => []

/-- The operator of a binary expression, if it has a level. -/
def leveled? : NodeKind → Option BinaryOp
  | binary _ op _ => if op.level?.isSome then some op else none
  | _ => none

/-- Kinds of which nothing is asked but that they refer to their parts in order. -/
def isPlain : NodeKind → Bool
  | classDeclaration .. | constructor .. | binary .. => false
  | k => !k.isWord

variable {kind : NodeKind} (plain : kind.isPlain = true)

include plain

theorem isWord_of_isPlain : kind.isWord = false := by
  cases kind <;> first | rfl | cases plain

theorem isConstructor_of_isPlain : kind.isConstructor = false := by
  cases kind <;> first | rfl | cases plain

theorem leveled?_of_isPlain : kind.leveled? = none := by
  cases kind <;> first | rfl | cases plain

omit plain

theorem children_of_isWord (word : kind.isWord = true) : kind.children = [] := by
  cases kind <;> first | rfl | cases word

theorem isConstructor_of_isWord (word : kind.isWord = true) : kind.isConstructor = false := by
  cases kind <;> first | rfl | cases word

end NodeKind

namespace Sketch

/-- What is asked of a node and the kinds of its parts. -/
structure Fits (kind : NodeKind) (parts : List NodeKind) : Prop where
  numbered : kind.children = List.range parts.length
  /-- The name of a class is a name. -/
  named : ∀ name typeParameters heritage members,
    kind = .classDeclaration name typeParameters heritage members →
      ∃ text, parts[name]? = some (.identifier text)
  /-- Constructors are members of classes. -/
  owned : ∀ i part, parts[i]? = some part → part.isConstructor = true → i ∈ kind.members
  /-- Operands suit the operator between them. -/
  grouped : ∀ left op right, kind = .binary left op right → op.level?.isSome = true →
    (∀ part inner, parts[left]? = some part → part.leveled? = some inner →
      op.admitsLeft inner = true) ∧
    (∀ part inner, parts[right]? = some part → part.leveled? = some inner →
      op.admitsRight inner = true)
  /-- A name is spelled as one. -/
  spelled : ∀ text, kind = .identifier text → Lexical.word text.toList = text.length

theorem Fits.plain {kind : NodeKind} {parts : List NodeKind} (plain : kind.isPlain = true)
    (numbered : kind.children = List.range parts.length)
    (free : ∀ part ∈ parts, part.isConstructor = false) : Fits kind parts where
  numbered := numbered
  named := by
    rintro name typeParameters heritage members rfl
    cases plain
  owned := by
    intro i part at_ constructor
    rw [free part (List.mem_of_getElem? at_)] at constructor
    cases constructor
  grouped := by
    rintro left op right rfl
    cases plain
  spelled := by
    rintro text rfl
    cases plain

/-- No part of a sketch lacks a counterpart. -/
def Supported : Sketch → Prop := Everywhere fun kind _ => kind.isUnsupported = false

theorem Supported.parts {site : Site} {kind : NodeKind} {parts : List Sketch}
    (supported : (node site kind parts).Supported) : ∀ p ∈ parts, p.Supported := by
  cases supported with
  | node here below => exact below

mutual

/-- The leaves of a sketch in order. -/
def words : Sketch → List Arena.Entry
  | node site kind parts => wordsOf parts ++ if kind.isWord then [⟨kind, site⟩] else []

def wordsOf : List Sketch → List Arena.Entry
  | [] => []
  | s :: ss => words s ++ wordsOf ss

end

theorem wordsOf_append (ss ts : List Sketch) : wordsOf (ss ++ ts) = wordsOf ss ++ wordsOf ts := by
  induction ss with
  | nil => rfl
  | cons s ss ih => simp [wordsOf, ih]

/-- A node says what an atom says, and stands where its token stands. -/
structure IsAtom (a : Atom) (e : Arena.Entry) : Prop where
  kind : e.kind = a.kind
  start : e.site.start = a.token.start.offset
  stop : e.site.stop = a.token.stop.offset

/-- Nodes are the atoms of a list between two others. -/
def Between (least most : List Atom) (es : List Arena.Entry) : Prop :=
  ∃ as : List Atom, least.Sublist as ∧ as.Sublist most ∧ List.Forall₂ IsAtom as es

section

variable {least most least' most' : List Atom} {es es' : List Arena.Entry}

theorem Between.append (h : Between least most es) (h' : Between least' most' es') :
    Between (least ++ least') (most ++ most') (es ++ es') := by
  obtain ⟨as, below, above, are⟩ := h
  obtain ⟨as', below', above', are'⟩ := h'
  exact ⟨as ++ as', below.append below', above.append above', List.rel_append are are'⟩

theorem Between.weaken (h : Between least most es) (lower : least'.Sublist least)
    (upper : most.Sublist most') : Between least' most' es := by
  obtain ⟨as, below, above, are⟩ := h
  exact ⟨as, lower.trans below, above.trans upper, are⟩

end

/-- What is said of sketches that may be constructors. -/
structure Yields (ts : List Token) (least most : List Atom) (ss : List Sketch) : Prop where
  fits : ∀ s ∈ ss, s.Everywhere Fits
  along : Along ts (sitesOf ss)
  words : (∀ s ∈ ss, s.Supported) → Between least most (wordsOf ss)

structure Renders (ts : List Token) (least most : List Atom) (ss : List Sketch) : Prop
    extends Yields ts least most ss where
  free : ∀ s ∈ ss, s.kind.isConstructor = false

section

variable {ts ts' : List Token} {least most least' most' : List Atom} {ss ss' : List Sketch}

theorem Yields.nil : Yields ts [] most [] :=
  ⟨nofun, .done ts, fun _ => ⟨[], .slnil, List.nil_sublist _, .nil⟩⟩

theorem Yields.append (h : Yields ts least most ss) (h' : Yields ts' least' most' ss') :
    Yields (ts ++ ts') (least ++ least') (most ++ most') (ss ++ ss') where
  fits s mem := (List.mem_append.mp mem).elim (h.fits s) (h'.fits s)
  along := by
    rw [sitesOf_append]
    exact h.along.append h'.along
  words supported := by
    rw [wordsOf_append]
    exact (h.words fun s mem => supported s (List.mem_append_left _ mem)).append
      (h'.words fun s mem => supported s (List.mem_append_right _ mem))

theorem Yields.weaken (h : Yields ts least most ss) (tokens : ts.Sublist ts')
    (lower : least'.Sublist least) (upper : most.Sublist most') : Yields ts' least' most' ss :=
  ⟨h.fits, h.along.weaken tokens, fun supported => (h.words supported).weaken lower upper⟩

theorem Renders.nil : Renders ts [] most [] := ⟨.nil, nofun⟩

theorem Renders.append (h : Renders ts least most ss) (h' : Renders ts' least' most' ss') :
    Renders (ts ++ ts') (least ++ least') (most ++ most') (ss ++ ss') :=
  ⟨h.toYields.append h'.toYields, fun s mem => (List.mem_append.mp mem).elim (h.free s) (h'.free s)⟩

theorem Renders.weaken (h : Renders ts least most ss) (tokens : ts.Sublist ts')
    (lower : least'.Sublist least) (upper : most.Sublist most') : Renders ts' least' most' ss :=
  ⟨h.toYields.weaken tokens lower upper, h.free⟩

/-- A node over the first of some sketches adds no leaf of its own. -/
theorem Yields.headed {parts more : List Sketch} (h : Yields ts least most (parts ++ more))
    {site : Site} {kind : NodeKind} (opens : site.Opens ts)
    (fits : Fits kind (parts.map Sketch.kind)) (bare : kind.isWord = false) :
    Yields ts least most (.node site kind parts :: more) where
  fits s mem := by
    rcases List.mem_cons.mp mem with rfl | mem
    · exact .node fits fun p mem => h.fits p (List.mem_append_left _ mem)
    · exact h.fits s (List.mem_append_right _ mem)
  along := by
    have inner := h.along
    rw [sitesOf_append] at inner
    exact inner.headed opens
  words supported := by
    have below := (supported _ List.mem_cons_self).parts
    have inner := h.words fun s mem => (List.mem_append.mp mem).elim (below s)
      fun mem => supported s (List.mem_cons_of_mem _ mem)
    simpa [wordsOf, wordsOf_append, Sketch.words, bare] using inner

theorem Yields.node (h : Yields ts least most ss) {site : Site} {kind : NodeKind}
    (opens : site.Opens ts) (fits : Fits kind (ss.map Sketch.kind)) (bare : kind.isWord = false) :
    Yields ts least most [.node site kind ss] :=
  Yields.headed ((List.append_nil ss).symm ▸ h) opens fits bare

end

/-- A node at the first of some tokens that fits its parts, no leaf and no constructor. -/
structure Heads (s : Sketch) (ts : List Token) (ss : List Sketch) : Prop where
  site : s.site.Opens ts
  parts : s = .node s.site s.kind ss
  fits : Fits s.kind (ss.map Sketch.kind)
  bare : s.kind.isWord = false
  free : s.kind.isConstructor = false

/-- A node at the first of some tokens that refers to some sketches in order, and of which nothing
else is asked. -/
def Joins (s : Sketch) (ts : List Token) (ss : List Sketch) : Prop :=
  ∃ site kind, s = .node site kind ss ∧ site.Opens ts ∧
    kind.children = List.range ss.length ∧ kind.isPlain = true

variable {ts : List Token} {least most : List Atom} {s : Sketch} {ss : List Sketch}

theorem Joins.heads (joins : s.Joins ts ss) (free : ∀ s ∈ ss, s.kind.isConstructor = false) :
    s.Heads ts ss := by
  obtain ⟨site, kind, rfl, opens, numbered, plain⟩ := joins
  have free : ∀ part ∈ ss.map Sketch.kind, part.isConstructor = false := by
    intro part mem
    obtain ⟨s, known, rfl⟩ := List.mem_map.mp mem
    exact free s known
  have fits : Fits kind (ss.map Sketch.kind) := .plain plain (by simpa using numbered) free
  have bare := NodeKind.isWord_of_isPlain plain
  exact ⟨opens, rfl, fits, bare, NodeKind.isConstructor_of_isPlain plain⟩

theorem Heads.renders (heads : s.Heads ts ss) (h : Yields ts least most ss) :
    Renders ts least most [s] := by
  refine ⟨?_, fun s mem => List.mem_singleton.mp mem ▸ heads.free⟩
  rw [heads.parts]
  exact h.node heads.site heads.fits heads.bare

theorem Renders.joined (h : Renders ts least most ss) (joins : s.Joins ts ss) :
    Renders ts least most [s] :=
  (joins.heads h.free).renders h.toYields

theorem Joins.leveled?_eq_none (joins : s.Joins ts ss) : s.kind.leveled? = none := by
  obtain ⟨site, kind, rfl, -, -, plain⟩ := joins
  exact NodeKind.leveled?_of_isPlain plain

/-- Something without a counterpart says nothing of atoms. -/
theorem renders_unsupported {site : Site} {construct : String} (opens : site.Opens ts) :
    Renders ts least most [leaf site (.unsupported construct)] where
  fits s mem := by
    rw [List.mem_singleton.mp mem]
    exact .node (.plain rfl rfl nofun) nofun
  along := .headed opens (.done ts)
  words supported := by
    cases supported _ List.mem_cons_self with
    | node here below => cases here
  free s mem := List.mem_singleton.mp mem ▸ rfl

/-- What is said of the sketch of a file, given the tokens of its text, the end of the text
included. -/
structure IsFile (ts : List Token) (least most : List Atom) (s : Sketch) : Prop where
  file : ∃ statements marker, s.kind = .sourceFile statements marker
  fits : s.Everywhere Fits
  words : s.Supported → Between least most s.words
  /-- The file itself begins with its text. -/
  sites : ∃ stop kind parts, s = .node ⟨0, stop, 0, 0, 0⟩ kind parts ∧ Along ts (sitesOf parts)

end Sketch

end Dartify
