import Mathlib.Algebra.BigOperators.Group.Finset.Piecewise
import Dartify.Proofs.Dart.Tokens

/-! Counting words. A word that is none of the language is written for a leaf, and in front of a
constructor as the name of its class. Main statement: it is written once for each such leaf and each
such constructor that the root reaches. -/
namespace Dartify

namespace Tree

/-- The innermost class around a node has a certain node for its name. -/
inductive InClass (t : Tree) : NodeId → NodeId → Prop
  | inside {id parent name : NodeId} {typeParameters : Option (List NodeId)}
      {heritage members : List NodeId} (up : t.parent? id = some parent)
      (kind : t.kind? parent = some (.classDeclaration name typeParameters heritage members)) :
      InClass t id name
  | further {id parent name : NodeId} (up : t.parent? id = some parent)
      (other : ∀ n ts h ms, t.kind? parent ≠ some (.classDeclaration n ts h ms))
      (around : InClass t parent name) : InClass t id name

variable {t : Tree}

def className? (t : Tree) (id : NodeId) : Option NodeId :=
  match t.kind? id with
  | some (.classDeclaration name ..) => some name
  | _ => none

theorem className?_eq_some_iff {id name : NodeId} :
    t.className? id = some name ↔ ∃ typeParameters heritage members,
      t.kind? id = some (.classDeclaration name typeParameters heritage members) := by
  unfold className?
  split
  · rename_i kind
    simp [kind]
  · rename_i other
    simpa using other name

theorem inClass_of_ancestorsWithin {n : Nat} {id name : NodeId}
    (found : (t.ancestorsWithin n id).findSome? t.className? = some name) : t.InClass id name := by
  induction n generalizing id with
  | zero => cases found
  | succ n ih =>
    rw [ancestorsWithin] at found
    split at found
    · rename_i p up
      rw [List.findSome?_cons] at found
      cases here : t.className? p with
      | some c =>
        rw [here] at found
        cases found
        obtain ⟨_, _, _, kind⟩ := className?_eq_some_iff.mp here
        exact .inside up kind
      | none =>
        rw [here] at found
        apply InClass.further up _ (ih found)
        intro c ts h ms kind
        rw [className?_eq_some_iff.mpr ⟨ts, h, ms, kind⟩] at here
        cases here
    · cases found

theorem Built.ancestorsWithin_of_inClass (built : t.Built) {n id name : Nat}
    (around : t.InClass id name) (limit : t.arena.size ≤ n + id) :
    (t.ancestorsWithin n id).findSome? t.className? = some name := by
  -- Each step upwards leaves fewer nodes above, so the walk is long enough to the end.
  induction around generalizing n with
  | @inside id parent name typeParameters heritage members up kind =>
    have bounds := built.arena.parent_gt up
    obtain ⟨m, rfl⟩ : ∃ m, n = m + 1 := Nat.exists_eq_succ_of_ne_zero (by omega)
    rw [ancestorsWithin, up, List.findSome?_cons, className?_eq_some_iff.mpr ⟨_, _, _, kind⟩]
  | @further id parent name up other around ih =>
    have bounds := built.arena.parent_gt up
    obtain ⟨m, rfl⟩ : ∃ m, n = m + 1 := Nat.exists_eq_succ_of_ne_zero (by omega)
    have none : t.className? parent = none := by
      apply Option.eq_none_iff_forall_ne_some.mpr
      intro c here
      obtain ⟨ts, h, ms, kind⟩ := className?_eq_some_iff.mp here
      exact other c ts h ms kind
    rw [ancestorsWithin, up, List.findSome?_cons, none]
    exact ih (by omega)

/-- The class that is found by going upwards is the innermost one. -/
theorem Built.enclosingClassName_eq_some_iff (built : t.Built) {id name : NodeId} :
    t.enclosingClassName id = some name ↔ t.InClass id name :=
  ⟨inClass_of_ancestorsWithin, fun around =>
    built.ancestorsWithin_of_inClass around (Nat.le_add_right ..)⟩

open Classical in
/-- The names, numbers and regular expressions below the root that have a certain text. -/
noncomputable def leavesWith (t : Tree) (x : String) : Finset NodeId :=
  {id ∈ t.reached | t.kind? id = some (.identifier x) ∨ t.kind? id = some (.numericLiteral x) ∨
    t.kind? id = some (.regularExpressionLiteral x)}

open Classical in
/-- The constructors below the root that stand in a class of a certain name. -/
noncomputable def constructorsOf (t : Tree) (x : String) : Finset NodeId :=
  {id ∈ t.reached | (∃ parameters body, t.kind? id = some (.constructor parameters body)) ∧
    ∃ name, t.InClass id name ∧ t.kind? name = some (.identifier x)}

theorem leafText?_eq_some_iff {id : NodeId} {x : String} :
    (t.kind? id).bind (·.leafText?) = some x ↔
      t.kind? id = some (.identifier x) ∨ t.kind? id = some (.numericLiteral x) ∨
        t.kind? id = some (.regularExpressionLiteral x) := by
  cases t.kind? id with
  | none => simp
  | some k => cases k <;> simp

theorem classText?_eq_some_iff (built : t.Built) (named : t.ClassesNamed) {id : NodeId}
    {x : String} :
    t.classText? id = some x ↔
      (∃ parameters body, t.kind? id = some (.constructor parameters body)) ∧
        ∃ name, t.InClass id name ∧ t.kind? name = some (.identifier x) := by
  unfold classText?
  split
  · rename_i parameters body kind
    rw [Option.bind_eq_some_iff]
    constructor
    · rintro ⟨name, enclosing, text⟩
      obtain ⟨y, spelled⟩ := named.identifier enclosing
      rw [spelled] at text
      cases text
      exact ⟨⟨_, _, kind⟩, name, built.enclosingClassName_eq_some_iff.mp enclosing, spelled⟩
    · rintro ⟨-, name, around, spelled⟩
      refine ⟨name, built.enclosingClassName_eq_some_iff.mpr around, ?_⟩
      rw [spelled]
      rfl
  · rename_i other
    constructor
    · exact nofun
    · rintro ⟨⟨parameters, body, kind⟩, -⟩
      exact absurd kind (other parameters body)

end Tree

namespace Dart

/-- The words of a text, which blanks and line breaks keep apart. -/
def words (text : List Char) : List (List Char) :=
  (text.splitOnP Char.isWhitespace).filter (· ≠ [])

@[simp] theorem words_nil : words [] = [] := by
  simp [words]

theorem words_append_blank {c : Char} (blank : c.isWhitespace = true) (first rest : List Char) :
    words (first ++ c :: rest) = words first ++ words rest := by
  rw [words, List.splitOnP_append_cons first rest blank, List.filter_append, ← words, ← words]

theorem words_cons_blank {c : Char} (blank : c.isWhitespace = true) (rest : List Char) :
    words (c :: rest) = words rest :=
  words_append_blank blank [] rest

/-- A piece begins with a blank, so it continues no word. -/
theorem words_append_render (text : List Char) (pieces : List Piece) :
    words (text ++ (render pieces).toList) = words text ++ words (render pieces).toList := by
  cases pieces with
  | nil => simp [render]
  | cons piece pieces =>
    obtain ⟨c, rest, begins, blank⟩ : ∃ c rest, (render (piece :: pieces)).toList = c :: rest ∧
        c.isWhitespace = true := by
      rw [render_cons]
      cases piece with
      | code text => exact ⟨' ', text.toList ++ (render pieces).toList, by simp [Piece.render], rfl⟩
      | comment text endsLine =>
        exact ⟨' ', (text ++ (if endsLine then "\n" else "") ++ render pieces).toList,
          by simp [Piece.render], rfl⟩
      | lineFeed => exact ⟨'\n', (render pieces).toList, by simp [Piece.render], rfl⟩
    rw [begins, words_append_blank blank, words_cons_blank blank]

theorem words_comment (text : String) (endsLine : Bool) :
    words (Piece.comment text endsLine).render.toList = words text.toList := by
  have front : ∀ rest, words (' ' :: rest) = words rest := words_cons_blank rfl
  cases endsLine with
  | false => simpa [Piece.render] using front text.toList
  | true =>
    have feed : words (text.toList ++ ['\n']) = words text.toList := by
      rw [words_append_blank rfl, words_nil, List.append_nil]
    simpa [Piece.render, feed] using front (text.toList ++ ['\n'])

/-- A word that is in no comment comes from the tokens. -/
theorem count_words_render {x : List Char} {pieces : List Piece}
    (comments : ∀ text endsLine, .comment text endsLine ∈ pieces → x ∉ words text.toList) :
    (words (render pieces).toList).count x =
      weigh (fun text => (words text.toList).count x) (tokens pieces) := by
  induction pieces with
  | nil => simp [render]
  | cons piece pieces ih =>
    have rest := ih fun text endsLine mem => comments text endsLine (List.mem_cons_of_mem _ mem)
    rw [render_cons, String.toList_append, words_append_render, List.count_append, rest]
    cases piece with
    | code text =>
      have front : words (Piece.code text).render.toList = words text.toList := by
        simpa [Piece.render] using words_cons_blank rfl text.toList
      rw [front, tokens_code, weigh_cons]
    | comment text endsLine =>
      rw [words_comment, List.count_eq_zero.mpr (comments text endsLine List.mem_cons_self),
        tokens_comment, Nat.zero_add]
    | lineFeed => simp [Piece.render, words_cons_blank]

theorem count_code (x : String) (pieces : List Piece) :
    pieces.count (.code x) = weigh (fun text => if text = x then 1 else 0) (tokens pieces) := by
  induction pieces with
  | nil => rfl
  | cons piece pieces ih =>
    rw [List.count_cons, ih]
    cases piece with
    | code text =>
      rw [tokens_code, weigh_cons, Nat.add_comm]
      simp
    | comment text endsLine => simp
    | lineFeed => simp

/-! ## Leaves and constructors -/

section Counts

variable {t : Tree} {weight : String → Nat} {x : String}

theorem weigh_option {o : Option String}
    (one : ∀ text, o = some text → weight text = if text = x then 1 else 0) :
    weigh weight o.toList = if o = some x then 1 else 0 := by
  cases o with
  | none => rfl
  | some text => simpa using one text rfl

/-- A weight that singles out one text counts its leaves and the constructors under this name. -/
theorem weigh_single (built : t.Built) (once : t.ChildrenOnce) (named : t.ClassesNamed)
    (done : (wholeCourse t).stop = none) (silent : ∀ word ∈ vocabulary, weight word = 0)
    (leaves : ∀ id text, (t.kind? id).bind (·.leafText?) = some text →
      weight text = if text = x then 1 else 0)
    (strings : ∀ id value, t.kind? id = some (.stringLiteral value) →
      weight (stringLiteral value) = 0) :
    weigh weight (codes (wholeCourse t).steps) =
      (t.leavesWith x).card + (t.constructorsOf x).card := by
  classical
  have leaf : ∀ id, weigh weight (t.leafToken? id).toList =
      if (t.kind? id).bind (·.leafText?) = some x then 1 else 0 := by
    intro id
    unfold Tree.leafToken?
    cases kind : t.kind? id with
    | none => rfl
    | some k =>
      cases k with
      | stringLiteral value => simpa using strings id value kind
      | _ => exact weigh_option fun text leaf => leaves id text (by rw [kind]; exact leaf)
  have name : ∀ id, weigh weight (t.classText? id).toList =
      if t.classText? id = some x then 1 else 0 := by
    intro id
    apply weigh_option
    intro text spelled
    obtain ⟨-, c, -, kind⟩ := (Tree.classText?_eq_some_iff built named).mp spelled
    exact leaves c text (by rw [kind]; rfl)
  rw [weigh_wholeCourse (fun word mem _ => silent word mem) built once named done]
  simp only [leaf, name, silent "," (by decide), Nat.mul_zero, Nat.add_zero, Finset.sum_add_distrib,
    ← Finset.card_filter, Tree.classText?_eq_some_iff built named, Tree.leafText?_eq_some_iff]
  exact Nat.add_comm _ _

end Counts

end Dart

/-- A word that occurs in a tree as the whole text of leaves, in no other token and in no
comment. -/
def Tree.Apart (t : Tree) (x : String) : Prop :=
  Dart.words x.toList = [x.toList] ∧ ∀ n ∈ t.arena.nodes.toList,
    (∀ token ∈ n.kind.leafToken?.toList, token ≠ x → x.toList ∉ Dart.words token.toList) ∧
      ∀ r ∈ t.leadingComments n, x.toList ∉ Dart.words (r.text t.text).toList

instance (t : Tree) (x : String) : Decidable (t.Apart x) :=
  inferInstanceAs (Decidable (_ ∧ ∀ _ ∈ _, _ ∧ _))

namespace Tree

variable {t : Tree} {x : String}

theorem Apart.count_token (apart : t.Apart x) {id : NodeId} {token : String}
    (leaf : t.leafToken? id = some token) :
    (Dart.words token.toList).count x.toList = if token = x then 1 else 0 := by
  obtain ⟨k, kind, leaf⟩ := Option.bind_eq_some_iff.mp leaf
  obtain ⟨n, found, rfl⟩ := Option.map_eq_some_iff.mp kind
  split
  · rename_i same
    rw [same, apart.1, List.count_singleton_self]
  · rename_i other
    apply List.count_eq_zero.mpr
    exact (apart.2 n (mem_nodes found)).1 token (Option.mem_toList.mpr leaf) other

theorem Apart.comment (apart : t.Apart x) {id : NodeId} {r : Comment.Range}
    (reported : r ∈ t.commentsOf id) : x.toList ∉ Dart.words (r.text t.text).toList := by
  obtain ⟨n, mem, leading⟩ := exists_of_mem_commentsOf reported
  exact (apart.2 n mem).2 r leading

end Tree

namespace Dart

theorem words_vocabulary : ∀ word ∈ vocabulary, words word.toList = [word.toList] := by
  decide

variable {t : Tree} {x : String}

/-- A word that is none of the language and no literal is a token as often as it is the text of a
leaf or the name of a class with a constructor; and a word of the text as often, if it occurs in no
other token and in no comment. -/
theorem count_leaf_emit (built : t.Built) (once : t.ChildrenOnce) (named : t.ClassesNamed)
    (fresh : x ∉ vocabulary)
    (unquoted : ∀ id value, t.kind? id = some (.stringLiteral value) → stringLiteral value ≠ x)
    {pieces : List Piece} (ok : emit t = .ok pieces) :
    pieces.count (.code x) = (t.leavesWith x).card + (t.constructorsOf x).card ∧
      (t.Apart x → (words (render pieces).toList).count x.toList =
        (t.leavesWith x).card + (t.constructorsOf x).card) := by
  obtain ⟨done, rfl⟩ := emit_eq_writes ok
  constructor
  -- The same sum twice: with the weight of a token, and with the words in it.
  · rw [count_code, tokens_writes]
    apply weigh_single built once named done
    · intro word mem
      exact if_neg (ne_of_mem_of_not_mem mem fresh)
    · exact fun _ _ _ => rfl
    · exact fun id value kind => if_neg (unquoted id value kind)
  · intro apart
    rw [count_words_render, tokens_writes]
    · apply weigh_single built once named done
      · intro word mem
        have other : x.toList ≠ word.toList := by
          intro same
          rw [String.toList_inj] at same
          exact fresh (same ▸ mem)
        simp [words_vocabulary word mem, other.symm]
      · intro id text leaf
        obtain ⟨k, kind, leaf⟩ := Option.bind_eq_some_iff.mp leaf
        have token : t.leafToken? id = some text := by
          rw [Tree.leafToken?, kind]
          exact NodeKind.leafToken?_eq_some_iff.mpr (Or.inl leaf)
        exact apart.count_token token
      · intro id value kind
        have token : t.leafToken? id = some (stringLiteral value) := by
          rw [Tree.leafToken?, kind]
          rfl
        rw [apart.count_token token, if_neg (unquoted id value kind)]
    · intro text endsLine mem
      obtain ⟨id, r, reported, rfl⟩ := comment_mem_writes mem
      exact apart.comment reported

/-- The name of a class, an argument of the same name, and a constructor. -/
theorem count_leaf_callingClass :
    callingClass.Built ∧ callingClass.ChildrenOnce ∧ callingClass.ClassesNamed ∧
      "A" ∉ vocabulary ∧
      (∀ id value, callingClass.kind? id = some (.stringLiteral value) →
        stringLiteral value ≠ "A") ∧
      callingClass.Apart "A" ∧
      ∃ pieces, emit callingClass = .ok pieces ∧
        (words (render pieces).toList).count ['A'] = 3 ∧
        pieces.count (.code "A") =
          (callingClass.leavesWith "A").card + (callingClass.constructorsOf "A").card ∧
        (words (render pieces).toList).count ['A'] =
          (callingClass.leavesWith "A").card + (callingClass.constructorsOf "A").card := by
  have unquoted : ∀ id value, callingClass.kind? id = some (.stringLiteral value) →
      stringLiteral value ≠ "A" := by
    intro id value kind
    have none : ∀ i : Fin 16, (callingClass.kind? i).all (·.name ≠ "StringLiteral") := by decide
    have here := none ⟨id, lt_of_kind?_callingClass kind⟩
    simp [kind, NodeKind.name] at here
  have fresh : "A" ∉ vocabulary := by decide
  have apart : callingClass.Apart "A" := by decide
  obtain ⟨pieces, ok, rendered⟩ := emit_callingClass
  obtain ⟨tokens, texts⟩ := count_leaf_emit built_callingClass childrenOnce_callingClass
    classesNamed_callingClass fresh unquoted ok
  have three : (words (render pieces).toList).count ['A'] = 3 := by
    rw [rendered]
    decide
  exact ⟨built_callingClass, childrenOnce_callingClass, classesNamed_callingClass, fresh, unquoted,
    apart, pieces, ok, three, tokens, texts apart⟩

end Dart

end Dartify
