import Mathlib.Tactic.SplitIfs
import Dartify.Proofs.Dart.Constructors
import Dartify.Proofs.Dart.Erasure
import Dartify.Proofs.Dart.Precedence

/-! Formulas: expressions of names, brackets and operators that both languages have. They are
written without brackets of their own, so that Dart groups them anew. Main statement: Dart groups
what is written as the tree does exactly if no bitwise operator has a comparison without brackets
around it as an operand. -/
namespace Dartify

open Dart

/-! ## The levels of both languages -/

namespace Dart

/-- The level that an operator of a level in Dart has in the source: the three levels of bitwise
operators are below the two of comparisons, not above them. -/
def sourceLevel (n : Nat) : Nat :=
  if n = 3 ∨ n = 4 then n + 4 else if 5 ≤ n ∧ n ≤ 7 then n - 1 else n + 1

theorem level?_eq (op : Operator) : op.val.level? = some (sourceLevel (level op.val)) := by
  obtain ⟨op, shared⟩ := op
  cases op <;> first | rfl | cases shared

theorem isComparison_iff {op : BinaryOp} :
    isComparison op = true ↔ level op = 3 ∨ level op = 4 := by
  simp [isComparison]

theorem isBitwise_iff {op : BinaryOp} : isBitwise op = true ↔ 5 ≤ level op ∧ level op ≤ 7 := by
  simp [isBitwise]

variable {op inner : Operator}

theorem level_lt_of_sourceLevel_lt
    (less : sourceLevel (level op.val) < sourceLevel (level inner.val))
    (apart : isBitwise op.val = true → isComparison inner.val ≠ true) :
    level op.val < level inner.val := by
  rw [isBitwise_iff, Ne, isComparison_iff] at apart
  unfold sourceLevel at less
  split_ifs at less <;> omega

theorem level_eq_of_sourceLevel_eq
    (same : sourceLevel (level op.val) = sourceLevel (level inner.val)) :
    level op.val = level inner.val := by
  unfold sourceLevel at same
  split_ifs at same <;> omega

theorem level_le_of_admitsLeft (admits : op.val.admitsLeft inner.val = true)
    (apart : isBitwise op.val = true → isComparison inner.val ≠ true) :
    level op.val ≤ level inner.val := by
  simp only [BinaryOp.admitsLeft, level?_eq, Bool.or_eq_true, Bool.and_eq_true, decide_eq_true_eq,
    beq_iff_eq] at admits
  rcases admits with less | ⟨⟨same, -⟩, -⟩
  · exact Nat.le_of_lt (level_lt_of_sourceLevel_lt less apart)
  · exact Nat.le_of_eq (level_eq_of_sourceLevel_eq same)

/-- An operator of the same level is a right operand only if it is `<`, since powers are no
operators of both languages. -/
theorem level_le_of_admitsRight (admits : op.val.admitsRight inner.val = true)
    (apart : isBitwise op.val = true → isComparison inner.val ≠ true) :
    level op.val + (!isComparison op.val).toNat ≤ level inner.val := by
  simp only [BinaryOp.admitsRight, level?_eq, Bool.or_eq_true, Bool.and_eq_true, decide_eq_true_eq,
    beq_iff_eq, BinaryOp.groupsRight] at admits
  rcases admits with less | ⟨same, power | angle⟩
  · have higher := level_lt_of_sourceLevel_lt less apart
    have bit := Bool.toNat_le (!isComparison op.val)
    omega
  · have shared := op.property
    rw [power] at shared
    cases shared
  · have alike := level_eq_of_sourceLevel_eq same
    have compared : isComparison op.val = true := by
      rw [isComparison_iff, alike, angle]
      exact .inr rfl
    rw [compared, alike]
    exact Nat.le_refl _

/-! ## Shapes -/

namespace Shape

/-- The operator at the root. -/
def root? : Shape → Option Operator
  | join _ op _ => some op
  | _ => none

def compares (s : Shape) : Bool := s.root?.any (isComparison ·.val)

/-- No bitwise operator has a comparison without brackets as an operand. -/
def Aligned : Shape → Prop
  | name _ => True
  | brackets s => s.Aligned
  | join left op right =>
    (isBitwise op.val = true → left.compares = false ∧ right.compares = false) ∧ left.Aligned ∧
      right.Aligned

variable {s : Shape} {n : Nat}

theorem compares_of_isGrouped (grouped : s.isGrouped n = true) (high : 4 < n) :
    s.compares = false := by
  cases s with
  | name text => rfl
  | brackets s => rfl
  | join left op right =>
    simp only [isGrouped, Bool.and_eq_true, decide_eq_true_eq] at grouped
    rw [compares, root?, Option.any_some, ← Bool.not_eq_true, isComparison_iff]
    omega

theorem aligned_of_isGrouped (grouped : s.isGrouped n = true) : s.Aligned := by
  induction s generalizing n with
  | name text => trivial
  | brackets s ih => exact ih grouped
  | join left op right ihl ihr =>
    simp only [isGrouped, Bool.and_eq_true, decide_eq_true_eq] at grouped
    obtain ⟨⟨-, groupedLeft⟩, groupedRight⟩ := grouped
    refine ⟨?_, ihl groupedLeft, ihr groupedRight⟩
    intro bitwise
    have high := (isBitwise_iff.mp bitwise).1
    exact ⟨compares_of_isGrouped groupedLeft (by omega),
      compares_of_isGrouped groupedRight (by omega)⟩

end Shape

end Dart

/-! ## Formulas -/

namespace Tree

/-- An expression of names, brackets and operators that both languages have. -/
inductive IsFormula (t : Tree) : NodeId → Prop where
  | name {id : NodeId} {text : String} (kind : t.kind? id = some (.identifier text)) :
    IsFormula t id
  | brackets {id inner : NodeId} (kind : t.kind? id = some (.parenthesized inner))
    (formula : IsFormula t inner) : IsFormula t id
  | join {id left right : NodeId} {op : BinaryOp} (kind : t.kind? id = some (.binary left op right))
    (shared : 0 < level op) (left : IsFormula t left) (right : IsFormula t right) : IsFormula t id

/-- A node is the root of a shape. -/
inductive Shows (t : Tree) : NodeId → Shape → Prop where
  | name {id : NodeId} {text : Name} (kind : t.kind? id = some (.identifier text.val)) :
    Shows t id (.name text)
  | brackets {id inner : NodeId} {s : Shape} (kind : t.kind? id = some (.parenthesized inner))
    (within : Shows t inner s) : Shows t id (.brackets s)
  | join {id left right : NodeId} {op : Operator} {l r : Shape}
    (kind : t.kind? id = some (.binary left op.val right)) (left : Shows t left l)
    (right : Shows t right r) : Shows t id (.join l op r)

/-- What is asked of names and of binary operators. -/
structure Regular (t : Tree) : Prop where
  spelled : ∀ id text, t.kind? id = some (.identifier text) →
    Syntax.Lexical.word text.toList = text.length
  grouped : ∀ id left op right, t.kind? id = some (.binary left op right) →
    op.level?.isSome = true → ∀ k inner, k.leveled? = some inner →
      (t.kind? left = some k → op.admitsLeft inner = true) ∧
        (t.kind? right = some k → op.admitsRight inner = true)

variable {t : Tree} {id : NodeId} {s : Shape}

theorem leveled?_of_shows (shown : t.Shows id s) {op : Operator} (root : s.root? = some op) :
    ∃ k, t.kind? id = some k ∧ k.leveled? = some op.val := by
  cases shown with
  | name kind => cases root
  | brackets kind inner => cases root
  | join kind left right =>
    cases root
    exact ⟨_, kind, by simp [NodeKind.leveled?, level?_eq]⟩

theorem not_mem_symbols {text : String}
    (spelled : Syntax.Lexical.word text.toList = text.length) : text ∉ symbols := by
  intro mem
  have none : ∀ w ∈ symbols, Syntax.Lexical.word w.toList ≠ w.length := by decide
  exact none text mem spelled

theorem IsFormula.exists_shows (regular : t.Regular) (formula : t.IsFormula id) :
    ∃ s, t.Shows id s := by
  induction formula with
  | name kind =>
    exact ⟨.name ⟨_, not_mem_symbols (regular.spelled _ _ kind)⟩, .name kind⟩
  | brackets kind inner ih =>
    obtain ⟨s, shown⟩ := ih
    exact ⟨_, .brackets kind shown⟩
  | join kind shared left right ihl ihr =>
    obtain ⟨l, left⟩ := ihl
    obtain ⟨r, right⟩ := ihr
    exact ⟨.join l ⟨_, shared⟩ r, .join kind left right⟩

theorem Shows.unique {d : Shape} (shown : t.Shows id s) (other : t.Shows id d) : s = d := by
  induction shown generalizing d with
  | name kind =>
    cases other with
    | name kind' =>
      rw [kind, Option.some.injEq, NodeKind.identifier.injEq] at kind'
      rw [Subtype.ext kind']
    | brackets kind' _ => simp [kind] at kind'
    | join kind' _ _ => simp [kind] at kind'
  | brackets kind inner ih =>
    cases other with
    | name kind' => simp [kind] at kind'
    | brackets kind' inner' =>
      rw [kind, Option.some.injEq, NodeKind.parenthesized.injEq] at kind'
      subst kind'
      rw [ih inner']
    | join kind' _ _ => simp [kind] at kind'
  | join kind left right ihl ihr =>
    cases other with
    | name kind' => simp [kind] at kind'
    | brackets kind' _ => simp [kind] at kind'
    | join kind' left' right' =>
      rw [kind, Option.some.injEq, NodeKind.binary.injEq] at kind'
      obtain ⟨rfl, same, rfl⟩ := kind'
      rw [ihl left', Subtype.ext same, ihr right']

/-- The operators keep their levels if no comparison is an operand of a bitwise operator. -/
theorem Shows.keepsLevels (regular : t.Regular) (shown : t.Shows id s) (aligned : s.Aligned)
    {n : Nat} (least : ∀ op, s.root? = some op → n ≤ level op.val) : s.KeepsLevels n := by
  induction shown generalizing n with
  | name kind => trivial
  | brackets kind inner ih => exact ih aligned fun _ _ => Nat.zero_le _
  | @join id left right op l r kind shownLeft shownRight ihl ihr =>
    obtain ⟨apart, alignedLeft, alignedRight⟩ := aligned
    -- The operands suit the levels of the source, and these agree with Dart's where no comparison
    -- meets a bitwise operator.
    have suits := regular.grouped _ _ _ _ kind (by rw [level?_eq]; rfl)
    refine ⟨least op rfl, ihl alignedLeft ?_, ihr alignedRight ?_⟩
    · intro inner root
      obtain ⟨k, kind', known⟩ := leveled?_of_shows shownLeft root
      refine level_le_of_admitsLeft ((suits _ _ known).1 kind') ?_
      intro bitwise compared
      have none := (apart bitwise).1
      rw [Shape.compares, root, Option.any_some, compared] at none
      cases none
    · intro inner root
      obtain ⟨k, kind', known⟩ := leveled?_of_shows shownRight root
      refine level_le_of_admitsRight ((suits _ _ known).2 kind') ?_
      intro bitwise compared
      have none := (apart bitwise).2
      rw [Shape.compares, root, Option.any_some, compared] at none
      cases none

/-- Dart groups the words of a formula as the tree does exactly if the formula is aligned. -/
theorem Shows.eq_iff_aligned (regular : t.Regular) (shown : t.Shows id s) {d : Shape}
    (grouped : d.isGrouped 0 = true) (same : d.words = s.words) : d = s ↔ s.Aligned := by
  constructor
  · rintro rfl
    exact Shape.aligned_of_isGrouped grouped
  · intro aligned
    have keeps := shown.keepsLevels regular aligned fun _ _ => Nat.zero_le _
    exact (Shape.eq_of_words_eq keeps grouped same.symm).symm

end Tree

/-! ## What is written -/

namespace Dart

/-- A course goes through and has these words for code. -/
def Course.Spells (t : Tree) (c : Course) (ws : List String) : Prop :=
  c.stop = none ∧ (c.marks t).filter Mark.isCode = ws.map .code

namespace Course

variable {t : Tree} {c first rest : Course} {ws vs : List String}

theorem spells_empty : empty.Spells t [] := ⟨rfl, rfl⟩

theorem Spells.code (h : c.Spells t ws) (w : String) : (c.after [.code w]).Spells t (w :: ws) := by
  refine ⟨h.1, ?_⟩
  rw [marks_after, List.filter_append, h.2]
  rfl

theorem Spells.enter (h : c.Spells t ws) (id : NodeId) : (c.after [.enter id]).Spells t ws := by
  refine ⟨h.1, ?_⟩
  have comments : ([Step.enter id].flatMap (Step.marks t)).filter Mark.isCode = [] := by
    simp [Step.marks, Mark.isCode]
  rw [marks_after, List.filter_append, h.2, comments, List.nil_append]

theorem Spells.append (h : first.Spells t ws) (h' : rest.Spells t vs) :
    (first.append rest).Spells t (ws ++ vs) := by
  rw [Course.append, h.1]
  refine ⟨h'.1, ?_⟩
  rw [marks_after, List.filter_append, h'.2, List.map_append, ← h.2]
  rfl

end Course

theorem course_of_kind {t : Tree} {id : NodeId} {k : NodeKind} (kind : t.kind? id = some k)
    {steps : List Step} (ok : script (t.enclosingClassName id) k = .ok steps) (depth : Nat) :
    course t (depth + 1) id = (Course.ofScript (course t depth) steps).after [.enter id] := by
  obtain ⟨n, found, rfl⟩ := Option.map_eq_some_iff.mp kind
  rw [course, found]
  simp only [ok]

/-- A formula is written as the words of its shape. -/
theorem spells_of_shows {t : Tree} (built : t.Built) {id : NodeId} {s : Shape}
    (shown : t.Shows id s) {depth : Nat} (deep : id < depth) :
    (course t depth id).Spells t s.words := by
  induction shown generalizing depth with
  | name kind =>
    obtain ⟨depth, rfl⟩ := Nat.exists_eq_succ_of_ne_zero (Nat.ne_zero_of_lt deep)
    rw [course_of_kind kind rfl]
    exact (Course.spells_empty.code _).enter _
  | brackets kind inner ih =>
    obtain ⟨depth, rfl⟩ := Nat.exists_eq_succ_of_ne_zero (Nat.ne_zero_of_lt deep)
    have lower := built.arena.child_lt ⟨_, kind, List.mem_singleton_self _⟩
    have inside := ih (Nat.lt_of_lt_of_le lower (Nat.le_of_lt_succ deep))
    rw [course_of_kind kind rfl]
    exact ((inside.append (Course.spells_empty.code ")")).code "(").enter _
  | join kind left right ihl ihr =>
    obtain ⟨depth, rfl⟩ := Nat.exists_eq_succ_of_ne_zero (Nat.ne_zero_of_lt deep)
    have lower := built.arena.child_lt ⟨_, kind, List.mem_cons_self⟩
    have lower' := built.arena.child_lt ⟨_, kind, List.mem_cons_of_mem _ (List.mem_singleton_self _)⟩
    have first := ihl (Nat.lt_of_lt_of_le lower (Nat.le_of_lt_succ deep))
    have second := ihr (Nat.lt_of_lt_of_le lower' (Nat.le_of_lt_succ deep))
    rw [course_of_kind kind rfl]
    -- The script ends with the right operand, and nothing is written behind it.
    have rest := (second.append Course.spells_empty).code
    rw [List.append_nil] at rest
    exact (first.append (rest _)).enter _

/-- From every draft, visiting a node succeeds and adds these words and comments only. -/
def WrittenAs (t : Tree) (id : NodeId) (ws : List String) : Prop :=
  ∀ depth d, id < depth → ∃ d', outcome (visit t depth id) d = (.ok (), d') ∧
    d'.pieces.toList.filter (!·.isComment) =
      d.pieces.toList.filter (!·.isComment) ++ ws.map .code

theorem writtenAs_of_shows {t : Tree} (built : t.Built) {id : NodeId} {s : Shape}
    (shown : t.Shows id s) : WrittenAs t id s.words := by
  intro depth d deep
  obtain ⟨stop, code⟩ := spells_of_shows built shown deep
  have taken := Course.taken_visit t depth id d
  rw [Course.answer, stop] at taken
  refine ⟨_, taken, ?_⟩
  have kept : ∀ ms : List Mark, (ms.map (Mark.piece t.text)).filter (!·.isComment) =
      (ms.filter Mark.isCode).map (Mark.piece t.text) := by
    intro ms
    rw [List.filter_map]
    congr 2
    funext m
    simp [Mark.isComment_piece]
  rw [Draft.pieces_foldl_put, List.filter_append, kept, Mark.filter_admitted, code, List.map_map]
  rfl

end Dart

/-! ## Trees of texts -/

theorem NodeKind.leveled?_relabel (f : NodeId → NodeId) (k : NodeKind) :
    (k.relabel f).leveled? = k.leveled? := by
  cases k <;> rfl

theorem Sketch.regular_tree (s : Sketch) (fileName : String) (text : List Char)
    (fits : s.Everywhere Fits) : (s.tree fileName text).Regular where
  spelled := by
    intro id spelling kind
    obtain ⟨kind', kinds, f, here, same, -⟩ := local_tree s fileName text fits kind
    cases kind' with
    | identifier text =>
      cases same
      exact here.spelled spelling rfl
    | _ => cases same
  grouped := by
    intro id left op right kind leveled k inner known
    obtain ⟨kind', kinds, f, here, same, below⟩ := local_tree s fileName text fits kind
    cases kind' with
    | binary l op' r =>
      cases same
      obtain ⟨toLeft, toRight⟩ := here.grouped l op r rfl leveled
      have part : ∀ i ∈ [l, r], (s.tree fileName text).kind? (f i) = some k →
          ∃ k', kinds[i]? = some k' ∧ k'.leveled? = some inner := by
        intro i mem kind
        rw [show [l, r] = List.range kinds.length from here.numbered, List.mem_range] at mem
        have at_ := List.getElem?_eq_getElem mem
        obtain ⟨g, found⟩ := below i _ at_
        rw [kind, Option.some.injEq] at found
        rw [found, NodeKind.leveled?_relabel] at known
        exact ⟨_, at_, known⟩
      constructor
      · intro kind
        obtain ⟨k', at_, known⟩ := part l (by simp) kind
        exact toLeft k' inner at_ known
      · intro kind
        obtain ⟨k', at_, known⟩ := part r (by simp) kind
        exact toRight k' inner at_ known
    | _ => cases same

theorem Tree.regular_ofText {fileName : String} {text : List Char} {tree : Tree}
    (ok : Tree.ofText fileName text = .ok tree) : tree.Regular := by
  obtain ⟨c, s, here, rest, -, -, -, rfl, isFile⟩ := Tree.exists_sketch_of_ofText ok
  exact s.regular_tree fileName text isFile.fits

namespace Dart

/-- A formula of a text is written as its words, and where Dart accepts these, it groups them as the
tree does exactly if no bitwise operator has a comparison without brackets as an operand. -/
theorem ofText_grouping {fileName : String} {text : List Char} {tree : Tree}
    (ok : Tree.ofText fileName text = .ok tree) {id : NodeId} (formula : tree.IsFormula id) :
    ∃ s, tree.Shows id s ∧ WrittenAs tree id s.words ∧
      ∀ d : Shape, d.isGrouped 0 = true → d.words = s.words → (tree.Shows id d ↔ s.Aligned) := by
  have regular := Tree.regular_ofText ok
  obtain ⟨-, built⟩ := Tree.proper_ofText ok
  obtain ⟨s, shown⟩ := formula.exists_shows regular
  refine ⟨s, shown, writtenAs_of_shows built shown, ?_⟩
  intro d grouped same
  rw [← shown.eq_iff_aligned regular grouped same]
  constructor
  · intro other
    exact other.unique shown
  · rintro rfl
    exact shown

/-- A comparison in brackets, as an operand of a bitwise operator. -/
def bracketedComparison : String := "(a < b) & c;"

/-- The shape of the comparison in brackets. -/
def comparisonShape : Shape :=
  .join (.brackets (.join (.name ⟨"a", by decide⟩) ⟨.lt, by decide⟩ (.name ⟨"b", by decide⟩)))
    ⟨.bitAnd, by decide⟩ (.name ⟨"c", by decide⟩)

/-- Dart groups what is written in one way, which is that of the tree. -/
theorem ofText_bracketedComparison :
    ∃ tree, Tree.ofText "a.ts" bracketedComparison.toList = .ok tree ∧ tree.IsFormula 5 ∧
      tree.Shows 5 comparisonShape ∧ WrittenAs tree 5 ["(", "a", "<", "b", ")", "&", "c"] ∧
      ∀ d : Shape, d.words = comparisonShape.words →
        (d.isGrouped 0 = true ↔ d = comparisonShape) := by
  have read : (Tree.ofText "a.ts" bracketedComparison.toList).toOption.any (fun tree =>
      tree.kind? 0 = some (.identifier "a") ∧ tree.kind? 1 = some (.identifier "b") ∧
        tree.kind? 2 = some (.binary 0 .lt 1) ∧ tree.kind? 3 = some (.parenthesized 2) ∧
        tree.kind? 4 = some (.identifier "c") ∧ tree.kind? 5 = some (.binary 3 .bitAnd 4)) =
      true := by
    decide +kernel
  obtain ⟨tree, ok, facts⟩ := exists_ok_of_any read
  obtain ⟨a, b, less, brackets, c, both⟩ := of_decide_eq_true facts
  have formula : tree.IsFormula 5 :=
    .join both (by decide) (.brackets brackets (.join less (by decide) (.name a) (.name b)))
      (.name c)
  have shown : tree.Shows 5 comparisonShape :=
    .join both (.brackets brackets (.join less (.name a) (.name b))) (.name c)
  obtain ⟨s, found, written, only⟩ := ofText_grouping ok formula
  obtain rfl := found.unique shown
  have aligned : comparisonShape.Aligned := by
    refine ⟨fun _ => ⟨rfl, rfl⟩, ⟨?_, trivial, trivial⟩, trivial⟩
    intro bitwise
    cases bitwise
  refine ⟨tree, ok, formula, shown, written, ?_⟩
  intro d same
  constructor
  · intro grouped
    exact ((only d grouped same).mpr aligned).unique shown
  · rintro rfl
    rfl

/-- A comparison without brackets, as an operand of a bitwise operator. -/
def bareComparison : String := "a & b == c;"

/-- Dart groups what is written, but with the comparison at the root. -/
theorem ofText_bareComparison :
    ∃ tree s d, Tree.ofText "a.ts" bareComparison.toList = .ok tree ∧ tree.Shows 4 s ∧
      WrittenAs tree 4 s.words ∧ translateText "a.ts" bareComparison = .ok " a & b == c ;" ∧
      d.isGrouped 0 = true ∧ d.words = s.words ∧ ¬ tree.Shows 4 d := by
  have read : (Tree.ofText "a.ts" bareComparison.toList).toOption.any (fun tree =>
      tree.kind? 0 = some (.identifier "a") ∧ tree.kind? 1 = some (.identifier "b") ∧
        tree.kind? 2 = some (.identifier "c") ∧ tree.kind? 3 = some (.binary 1 .eq 2) ∧
        tree.kind? 4 = some (.binary 0 .bitAnd 3)) = true := by
    decide +kernel
  have out : (translateText "a.ts" bareComparison).toOption = some " a & b == c ;" := by
    decide +kernel
  obtain ⟨tree, ok, facts⟩ := exists_ok_of_any read
  obtain ⟨a, b, c, equal, both⟩ := of_decide_eq_true facts
  have shown : tree.Shows 4
      (.join (.name ⟨"a", by decide⟩) ⟨.bitAnd, by decide⟩
        (.join (.name ⟨"b", by decide⟩) ⟨.eq, by decide⟩ (.name ⟨"c", by decide⟩))) :=
    .join both (.name a) (.join equal (.name b) (.name c))
  have built := (Tree.proper_ofText ok).2
  refine ⟨tree, _, .join (.join (.name ⟨"a", by decide⟩) ⟨.bitAnd, by decide⟩
    (.name ⟨"b", by decide⟩)) ⟨.eq, by decide⟩ (.name ⟨"c", by decide⟩), ok, shown,
    writtenAs_of_shows built shown, ok_of_toOption out, rfl, rfl, ?_⟩
  intro other
  cases other with
  | join kind left right =>
    rw [both] at kind
    cases kind

end Dart

end Dartify
