import Dartify.Proofs.Dart.Tokens

/-! Trees whose own texts lack some characters: the texts of leaves, the values of literals and the
comments. Main statement: wherever such characters are written, they come from the words of the
language. -/
namespace Dartify

open Text

namespace Literal

def escapeLetters : List Char :=
  ['"', '\\', '$', 'b', 'f', 'n', 'r', 't', 'u', '0', '1', '2', '3', '4', '5', '6', '7', '8', '9',
    'a', 'b', 'c', 'd', 'e', 'f']

theorem hexDigit_mem_escapeLetters {n : Nat} (bound : n < 16) : hexDigit n ∈ escapeLetters := by
  have all : ∀ d : Fin 16, hexDigit d ∈ escapeLetters := by decide
  exact all ⟨n, bound⟩

/-- Besides the character itself only those of escapes are written. -/
theorem encodeChar_subset (c : Char) : encodeChar c ⊆ c :: escapeLetters := by
  unfold encodeChar
  split
  iterate 8 exact List.subset_cons_of_subset _ (by decide)
  split
  · rename_i control
    have high := hexDigit_mem_escapeLetters (n := c.toNat / 16) (by omega)
    have low := hexDigit_mem_escapeLetters (n := c.toNat % 16) (by omega)
    apply List.subset_cons_of_subset
    have front : ['\\', 'u', '0', '0'] ⊆ escapeLetters := by decide
    exact List.append_subset.mpr ⟨front, by simp [high, low]⟩
  · exact List.cons_subset.mpr ⟨List.mem_cons_self, List.nil_subset _⟩

end Literal

def NodeKind.content? : NodeKind → Option String
  | stringLiteral value => some value
  | k => k.leafText?

namespace NodeKind

variable {k : NodeKind} {text : String}

theorem content?_of_leafText? (leaf : k.leafText? = some text) : k.content? = some text := by
  cases k with
  | stringLiteral value => cases leaf
  | _ => exact leaf

end NodeKind

/-- No leaf, no value and no comment of a tree has a certain character. -/
def Tree.Lacks (t : Tree) (p : Char → Bool) : Prop :=
  ∀ n ∈ t.arena.nodes.toList, (∀ text ∈ n.kind.content?.toList, text.toList.filter p = []) ∧
    ∀ r ∈ t.leadingComments n, (r.text t.text).toList.filter p = []

instance (t : Tree) (p : Char → Bool) : Decidable (t.Lacks p) :=
  inferInstanceAs (Decidable (∀ _ ∈ _, _ ∧ _))

namespace Dart

theorem filter_stringLiteral {p : Char → Bool} (letters : Literal.escapeLetters.filter p = [])
    {value : String} (lacks : value.toList.filter p = []) :
    (stringLiteral value).toList.filter p = [] := by
  rw [List.filter_eq_nil_iff] at letters lacks ⊢
  intro c mem
  have quote : '"' ∈ Literal.escapeLetters := by decide
  rw [stringLiteral, String.toList_ofList, Literal.encode] at mem
  simp only [List.cons_append, List.mem_cons, List.mem_append, List.mem_flatMap, List.not_mem_nil,
    or_false] at mem
  rcases mem with rfl | ⟨d, inside, written⟩ | rfl
  · exact letters _ quote
  · rcases List.mem_cons.mp (Literal.encodeChar_subset d written) with rfl | letter
    · exact lacks _ inside
    · exact letters _ letter
  · exact letters _ quote

end Dart

namespace Tree

variable {t : Tree} {p : Char → Bool}

theorem Lacks.content (lacks : t.Lacks p) {id : NodeId} {k : NodeKind} {text : String}
    (kind : t.kind? id = some k) (content : k.content? = some text) :
    text.toList.filter p = [] := by
  obtain ⟨n, found, rfl⟩ := Option.map_eq_some_iff.mp kind
  exact (lacks n (mem_nodes found)).1 text (Option.mem_toList.mpr content)

theorem Lacks.leafToken (lacks : t.Lacks p) (letters : Literal.escapeLetters.filter p = [])
    {id : NodeId} {text : String} (leaf : t.leafToken? id = some text) :
    text.toList.filter p = [] := by
  obtain ⟨k, kind, token⟩ := Option.bind_eq_some_iff.mp leaf
  rcases NodeKind.leafToken?_eq_some_iff.mp token with leaf | ⟨value, rfl, rfl⟩
  · exact lacks.content kind (NodeKind.content?_of_leafText? leaf)
  · exact Dart.filter_stringLiteral letters (lacks.content kind rfl)

theorem Lacks.classText (lacks : t.Lacks p) {id : NodeId} {text : String}
    (name : t.classText? id = some text) : text.toList.filter p = [] := by
  unfold classText? at name
  split at name
  · obtain ⟨c, -, leaf⟩ := Option.bind_eq_some_iff.mp name
    obtain ⟨k, kind, leaf⟩ := Option.bind_eq_some_iff.mp leaf
    exact lacks.content kind (NodeKind.content?_of_leafText? leaf)
  · cases name

theorem Lacks.comment (lacks : t.Lacks p) {id : NodeId} {r : Comment.Range}
    (reported : r ∈ t.commentsOf id) : (r.text t.text).toList.filter p = [] := by
  obtain ⟨n, mem, leading⟩ := exists_of_mem_commentsOf reported
  exact (lacks n mem).2 r leading

end Tree

namespace Dart

/-- Characters that the comments lack, blanks apart, are written by tokens only. -/
theorem filter_writes {t : Tree} {p : Char → Bool} (lacks : t.Lacks p) (blank : p ' ' = false)
    (feed : p '\n' = false) (c : Comment.Cursor) (steps : List Step) :
    (render (writes t c steps)).toList.filter p = (codes steps).flatMap (·.toList.filter p) := by
  rw [filter_render blank feed, tokens_writes]
  intro text endsLine mem
  obtain ⟨id, r, reported, rfl⟩ := comment_mem_writes mem
  exact lacks.comment reported

end Dart

end Dartify
