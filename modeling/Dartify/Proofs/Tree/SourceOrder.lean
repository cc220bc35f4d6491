import Mathlib.Data.List.DropRight
import Dartify.Proofs.Abstraction.Statements
import Dartify.Proofs.Outcome
import Dartify.Proofs.Tree.Preorder

/-! The nodes of a text stand in the order of the text. Each begins at a token or at an end of the
text, and its full start is the last end of a token that does not lie behind its beginning. Main
statement: the preorder of the tree of a text goes forward through the text, and where a node stands
is told by the text and its tokens alone. -/
namespace Dartify

open Syntax

/-! ## Places -/

/-- What a place behind some characters says: how many bytes they have, how many line feeds, and how
many bytes behind the last of these. -/
theorem Place.after_origin (cs : List Char) :
    Place.origin.after cs =
      ⟨Text.bytes cs, cs.count '\n', Text.bytes (cs.rtakeWhile (· ≠ '\n'))⟩ := by
  induction cs using List.reverseRecOn with
  | nil => rfl
  | append_singleton cs c ih =>
    have last : ∀ p : Place, p.after [c] = p.next c := fun _ => rfl
    have byte : ∀ c : Char, Text.bytes [c] = c.utf8Size := fun _ => rfl
    rw [Place.after_append, ih, last, Place.next, List.count_append, Text.bytes_append]
    split
    · rename_i feed
      subst feed
      rw [List.rtakeWhile_concat_neg _ _ _ (by simp)]
      rfl
    · rename_i other
      rw [List.rtakeWhile_concat_pos _ _ _ (by simpa using other), Text.bytes_append, byte]
      simp [other]

/-! ## Ends of tokens -/

namespace Syntax

/-- The last end of a token that does not lie behind an offset; without one, the beginning of the
text. -/
def Token.lastEnd (ts : List Token) (offset : Nat) : Nat :=
  ((ts.map fun t => t.stop.offset).filter (· ≤ offset)).foldr max 0

namespace Token

variable {p q : Place} {ts : List Token} {t : Token} {offset : Nat}

theorem lastEnd_cons (t : Token) (ts : List Token) (offset : Nat) :
    lastEnd (t :: ts) offset =
      if t.stop.offset ≤ offset then max t.stop.offset (lastEnd ts offset)
      else lastEnd ts offset := by
  by_cases before : t.stop.offset ≤ offset <;> simp [lastEnd, before]

theorem lastEnd_eq_zero (behind : ∀ t ∈ ts, offset < t.stop.offset) : lastEnd ts offset = 0 := by
  induction ts with
  | nil => rfl
  | cons t ts ih =>
    obtain ⟨here, later⟩ := List.forall_mem_cons.mp behind
    rw [lastEnd_cons, if_neg (Nat.not_le_of_lt here), ih later]

theorem Linked.start_lt_stop (linked : Linked p ts q) (mem : t ∈ ts) :
    p.offset ≤ t.start.offset ∧ t.start.offset < t.stop.offset := by
  have behind := linked.apart.1 t mem
  have trivia := t.behind_le_start
  exact ⟨Nat.le_trans behind trivia, Token.start_lt_stop (linked.text_ne t mem)⟩

/-- The last end at or before the beginning of a token is where the token before it ends. -/
theorem Linked.lastEnd_start (linked : Linked p ts q) (mem : t ∈ ts) :
    max p.offset (lastEnd ts t.start.offset) = t.behind.offset := by
  induction ts generalizing p with
  | nil => cases mem
  | cons u ts ih =>
    obtain ⟨later, -, -, -⟩ := linked.2.2.apart
    have wide := (linked.start_lt_stop List.mem_cons_self).2
    have trivia := u.behind_le_start
    obtain ⟨rfl, -, rest⟩ := linked
    rw [lastEnd_cons]
    rcases List.mem_cons.mp mem with rfl | mem
    · have none : lastEnd ts t.start.offset = 0 := lastEnd_eq_zero fun v mem => by
        have bounds := rest.start_lt_stop mem
        omega
      rw [if_neg (Nat.not_le_of_lt wide), none, Nat.max_zero]
    · have before := later t mem
      have inner := ih rest mem
      have trivia' := t.behind_le_start
      rw [if_pos (by omega)]
      omega

theorem Linked.lastEnd_end (linked : Linked p ts q) (behind : q.offset ≤ offset) :
    max p.offset (lastEnd ts offset) = q.offset := by
  induction ts generalizing p with
  | nil =>
    cases linked
    exact Nat.max_zero _
  | cons u ts ih =>
    obtain ⟨-, before, le, -⟩ := linked.apart
    have inner := ih linked.2.2
    have wide := linked.start_lt_stop List.mem_cons_self
    have stop := before u List.mem_cons_self
    rw [lastEnd_cons, if_pos (by omega)]
    omega

end Token

/-! ## The tokens of a text -/

namespace Covers

variable {text rest : List Char} {c : Concrete} {here : Place} {t : Token}
  (covers : Covers text [c] here rest)

include covers

/-- Tokens and the end of a text begin one behind the other, and so do the gaps in front of them. -/
theorem ordered :
    ((c.tokens ++ [Token.atEnd here rest]).Pairwise fun t u => t.start.offset ≤ u.start.offset) ∧
      (c.tokens ++ [Token.atEnd here rest]).Pairwise fun t u =>
        t.behind.offset ≤ u.behind.offset := by
  obtain ⟨-, before, -, apart⟩ := covers.linked_tokens.apart
  have all : (c.tokens ++ [Token.atEnd here rest]).Pairwise fun t u =>
      t.stop.offset ≤ u.behind.offset ∧ t.start.offset < t.stop.offset := by
    refine List.pairwise_append.mpr ⟨apart.imp_of_mem fun mem _ apart => ?_,
      List.pairwise_singleton _ _, fun t mem u last => ?_⟩
    · exact ⟨apart, (covers.linked_tokens.start_lt_stop mem).2⟩
    · rw [List.mem_singleton.mp last]
      exact ⟨before t mem, (covers.linked_tokens.start_lt_stop mem).2⟩
  constructor
  · refine all.imp fun {t u} apart => ?_
    have trivia := u.behind_le_start
    omega
  · refine all.imp fun {t u} apart => ?_
    have trivia := t.behind_le_start
    omega

/-- Every token, and the end of the text, begins behind a part of the text, and the last end of a
token at or before it is the one that it keeps. -/
theorem placed (mem : t ∈ c.tokens ++ [Token.atEnd here rest]) :
    t.behind.offset = Token.lastEnd c.tokens t.start.offset ∧
      ∃ front behind, text = front ++ behind ∧ t.start = Place.origin.after front := by
  have linked := covers.linked_tokens
  have spelled := covers.spelled_tokens
  rcases List.mem_append.mp mem with mem | mem
  · have last := linked.lastEnd_start mem
    obtain ⟨front, behind, split, place, -⟩ := Token.exists_front linked covers.spaced_tokens mem
    refine ⟨last.symm.trans (Nat.zero_max _), front ++ t.trivia, t.text.toList ++ behind, ?_, ?_⟩
    · rw [← spelled, split, Token.spelling]
      simp only [List.append_assoc]
    · rw [Token.start, place, Place.after_append]
  · obtain rfl := List.mem_singleton.mp mem
    have last := linked.lastEnd_end (Token.atEnd here rest).behind_le_start
    refine ⟨last.symm.trans (Nat.zero_max _), text, [], (List.append_nil text).symm, ?_⟩
    rw [← spelled, Place.after_append, ← linked.after]
    rfl

end Covers

end Syntax

/-! ## Sites -/

/-- A site is where a text and its tokens put it. -/
structure Site.Placed (text : List Char) (ts : List Token) (site : Site) : Prop where
  ordered : site.fullStart ≤ site.start
  fullStart : site.fullStart = Token.lastEnd ts site.start
  position : ∃ front behind, text = front ++ behind ∧ Text.bytes front = site.start ∧
    site.line = front.count '\n' ∧ site.column = Text.bytes (front.rtakeWhile (· ≠ '\n'))

namespace Site

variable {text rest : List Char} {c : Concrete} {here : Place} {site : Site} {t : Token}

theorem StandsOn.placed (covers : Covers text [c] here rest)
    (mem : t ∈ c.tokens ++ [Token.atEnd here rest]) (stands : site.StandsOn t) :
    site.Placed text c.tokens := by
  obtain ⟨last, front, behind, split, place⟩ := covers.placed mem
  obtain ⟨-, start, fullStart, line, column⟩ := stands
  rw [Place.after_origin] at place
  refine ⟨?_, ?_, front, behind, split, ?_, ?_, ?_⟩
  · rw [start, fullStart]
    exact t.behind_le_start
  · rw [start, fullStart, last]
  · rw [start, place]
  · rw [line, place]
  · rw [column, place]

/-- A file begins in front of all tokens. -/
theorem placed_file (covers : Covers text [c] here rest) (stop : Nat) :
    Placed text c.tokens ⟨0, stop, 0, 0, 0⟩ := by
  have none : Token.lastEnd c.tokens 0 = 0 := Token.lastEnd_eq_zero fun t mem => by
    have bounds := covers.linked_tokens.start_lt_stop mem
    omega
  exact ⟨Nat.le_refl 0, none.symm, [], text, rfl, rfl, rfl, rfl⟩

end Site

namespace Tree

variable {fileName : String} {text : List Char} {t : Tree}

/-- The sites of a tree in preorder are that of the file and then sites along the tokens. -/
theorem exists_sites (ok : Tree.ofText fileName text = .ok t) :
    ∃ c here rest stop sites, Grammar.read? text = some c ∧ Covers text [c] here rest ∧
      Along (c.tokens ++ [Token.atEnd here rest]) sites ∧
      t.inPreorder.map (·.site) = ⟨0, stop, 0, 0, 0⟩ :: sites ∧
      (∀ id n, t.node? id = some n → n.site ∈ (⟨0, stop, 0, 0, 0⟩ :: sites : List Site)) ∧
      (t.preorder.map Prod.snd).Perm (List.range t.arena.size) := by
  obtain ⟨c, s, here, rest, read, covers, -, rfl, isFile⟩ := exists_sketch_of_ofText ok
  have numbered : s.Everywhere Sketch.Numbered := isFile.fits.imp fun _ _ fits => fits.numbered
  have inPreorder := s.sites_inPreorder fileName text numbered
  have once := s.perm_preorder fileName text numbered
  have known : ∀ id n, (s.tree fileName text).node? id = some n → n.site ∈ s.sites :=
    fun id n node => s.site_mem_sites 0 _ (List.mem_of_getElem? (Sketch.getElem?_layout node))
  obtain ⟨stop, kind, parts, rfl, along⟩ := isFile.sites
  exact ⟨c, here, rest, stop, _, read, covers, along, inPreorder, known, once⟩

/-- The nodes of a text in preorder go forward through the text, and each stands where the text and
its tokens put it; so nodes that begin together have the same comments in front of them. -/
theorem inPreorder_ordered (ok : Tree.ofText fileName text = .ok t) :
    (t.preorder.map Prod.snd).Perm (List.range t.arena.size) ∧
      (t.inPreorder.Pairwise fun n m =>
        n.site.start ≤ m.site.start ∧ n.site.fullStart ≤ m.site.fullStart) ∧
      ∃ c, Grammar.read? text = some c ∧ ∀ id n, t.node? id = some n →
        n.site.Placed text c.tokens ∧
          ∀ id' n', t.node? id' = some n' → n'.site.start = n.site.start →
            n'.site.fullStart = n.site.fullStart ∧ t.leadingComments n' = t.leadingComments n := by
  obtain ⟨c, here, rest, stop, sites, read, covers, along, inPreorder, known, once⟩ :=
    exists_sites ok
  obtain ⟨starts, behinds⟩ := covers.ordered
  have placed : ∀ id n, t.node? id = some n → n.site.Placed text c.tokens := by
    intro id n node
    rcases List.mem_cons.mp (known id n node) with file | mem
    · rw [file]
      exact Site.placed_file covers stop
    · obtain ⟨token, mem, stands⟩ := along.exists_of_mem mem
      exact stands.placed covers mem
  refine ⟨once, ?_, c, read, fun id n node => ⟨placed id n node, fun id' n' node' together => ?_⟩⟩
  · have sorted : (⟨0, stop, 0, 0, 0⟩ :: sites : List Site).Pairwise fun a b =>
        a.start ≤ b.start ∧ a.fullStart ≤ b.fullStart := by
      refine List.pairwise_cons.mpr ⟨fun b _ => ⟨Nat.zero_le _, Nat.zero_le _⟩, ?_⟩
      exact (along.pairwise (fun _ _ stands => stands.start) starts).and
        (along.pairwise (fun _ _ stands => stands.fullStart) behinds)
    rw [← inPreorder] at sorted
    exact List.pairwise_map.mp sorted
  · have same : n'.site.fullStart = n.site.fullStart := by
      rw [(placed id' n' node').fullStart, together, (placed id n node).fullStart]
    exact ⟨same, by rw [leadingComments, leadingComments, same]⟩

/-- A statement, and behind a comment a function that is exported. -/
def exported : List Char :=
  ['x', ';', '\n', '/', '/', 'é', '\n', 'e', 'x', 'p', 'o', 'r', 't', ' ', 'f', 'u', 'n', 'c', 't',
    'i', 'o', 'n', ' ', 'f', '(', ')', '{', '}']

theorem inPreorder_ordered_exported :
    ∃ t, Tree.ofText "a.ts" exported = .ok t ∧
      t.inPreorder.map (fun n => (n.site.start, n.site.fullStart)) =
        [(0, 0), (0, 0), (0, 0), (8, 2), (24, 23), (27, 27), (29, 29)] ∧
      (t.inPreorder.Pairwise fun n m =>
        n.site.start ≤ m.site.start ∧ n.site.fullStart ≤ m.site.fullStart) ∧
      ∃ c, Grammar.read? exported = some c ∧
        ∀ id n, t.node? id = some n → n.site.Placed exported c.tokens := by
  have built : (Tree.ofText "a.ts" exported).toOption.any (fun t =>
      t.inPreorder.map (fun n => (n.site.start, n.site.fullStart)) =
        [(0, 0), (0, 0), (0, 0), (8, 2), (24, 23), (27, 27), (29, 29)]) = true := by
    decide +kernel
  obtain ⟨t, ok, sites⟩ := exists_ok_of_any built
  obtain ⟨-, sorted, c, read, placed⟩ := inPreorder_ordered ok
  exact ⟨t, ok, of_decide_eq_true sites, sorted, c, read, fun id n node => (placed id n node).1⟩

end Tree

end Dartify
