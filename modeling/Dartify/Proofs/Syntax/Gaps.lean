import Mathlib.Data.List.TakeWhile
import Dartify.Proofs.Comment.Items
import Dartify.Proofs.Text.Lines
import Dartify.Syntax.Lexical

/-! What the grammar passes over between two tokens, as a relation: blanks and comments one behind
the other, as many as there are. Most of these pieces are items of the comment scanner too. Main
statement: in front of a token the scanner passes over just what the grammar does exactly if all
pieces are items and the token begins with nothing that the scanner takes for one. -/
namespace Dartify

open Comment (Item)

/-- An item that the grammar passes over as well. A next line character belongs to a name, and a
block comment that is never closed is none. -/
def Comment.Item.Shared : Item → Prop
  | .lineBreak _ => True
  | .blank c => Text.isGrammarBlank c = true
  | .comment body =>
    ∃ inner, body = '/' :: '/' :: inner ∨ body = '/' :: '*' :: (inner ++ ['*', '/'])

namespace Syntax

/-- A piece of what the grammar passes over between two tokens. -/
inductive Piece where
  | item (item : Item)
  /-- A blank without width. -/
  | zeroWidth (c : Char)
  /-- A comment in the style of a markup language. -/
  | markup (text : List Char)

namespace Piece

def text : Piece → List Char
  | item i => i.text
  | zeroWidth c => [c]
  | markup text => text

/-- A piece stands in front of a rest of the text. -/
inductive Stands : Piece → List Char → Prop
  | item {i : Item} {rest : List Char} (stands : i.Stands rest) (shared : i.Shared) :
      Stands (item i) rest
  | zeroWidth {c : Char} (rest : List Char) (zero : c = '\u200b' ∨ c = '\u2060') :
      Stands (zeroWidth c) rest
  | markup {opening inner rest : List Char}
      (opens : opening = ['<', '!', '-', '-'] ∨ opening = ['-', '-', '>'])
      (runs : ∀ c ∈ inner, Text.isLineBreak c = false ∨ c = '\r')
      (ends : ∀ c, rest.head? = some c → Text.isLineBreak c = true ∧ c ≠ '\r') :
      Stands (markup (opening ++ inner)) rest

end Piece

/-- A text begins with some pieces, behind which a rest stands. -/
inductive Gap : List Char → List Piece → List Char → Prop
  | none (rest : List Char) : Gap rest [] rest
  | cons {piece : Piece} {pieces : List Piece} {behind rest : List Char}
      (stands : piece.Stands behind) (more : Gap behind pieces rest) :
      Gap (piece.text ++ behind) (piece :: pieces) rest

/-- No further piece stands in front, unless it is a comment in the style of a markup language,
which does not count everywhere. -/
def Settled (cs : List Char) : Prop :=
  ∀ (piece : Piece) (rest : List Char), cs = piece.text ++ rest → piece.Stands rest →
    ∃ text, piece = .markup text

/-- The scanner takes nothing at the front for an item that is a token to the grammar. -/
structure Plain (cs : List Char) : Prop where
  named : cs.head? ≠ some '\u0085'
  closed : ¬ ['/', '*'] <+: cs

namespace Gap

variable {cs rest behind : List Char} {pieces more : List Piece}

theorem split (gap : Gap cs pieces rest) : cs = pieces.flatMap Piece.text ++ rest := by
  induction gap with
  | none => rfl
  | cons stands more ih => simp [← ih]

theorem push {piece : Piece} (stands : piece.Stands (pieces.flatMap Piece.text ++ rest))
    (more : Gap (pieces.flatMap Piece.text ++ rest) pieces rest) :
    Gap ((piece :: pieces).flatMap Piece.text ++ rest) (piece :: pieces) rest := by
  rw [List.flatMap_cons, List.append_assoc]
  exact .cons stands more

theorem append (gap : Gap cs pieces behind) (gap' : Gap behind more rest) :
    Gap cs (pieces ++ more) rest := by
  induction gap with
  | none => exact gap'
  | cons stands _ ih => exact .cons stands (ih gap')

theorem exists_stands {piece : Piece} (gap : Gap cs (piece :: pieces) rest) :
    ∃ behind, piece.Stands behind := by
  cases gap with
  | cons stands more => exact ⟨_, stands⟩

theorem single {piece : Piece} (stands : piece.Stands rest) :
    Gap (piece.text ++ rest) [piece] rest :=
  .cons stands (.none rest)

end Gap

/-! ## Against the items of the scanner -/

theorem Piece.Stands.eq_item {piece : Piece} {item : Item} {rest rest' : List Char}
    (h : piece.Stands rest) (h' : item.Stands rest')
    (same : piece.text ++ rest = item.text ++ rest') : piece = .item item ∧ rest = rest' := by
  cases h with
  | item stands shared =>
    obtain ⟨rfl, rfl⟩ := stands.unique h' same
    exact ⟨rfl, rfl⟩
  | zeroWidth _ zero =>
    have read := Comment.item?_of_stands h'
    rw [← same] at read
    rcases zero with rfl | rfl <;> cases read
  | markup opens runs ends =>
    have read := Comment.item?_of_stands h'
    rw [← same] at read
    rcases opens with rfl | rfl <;> cases read

theorem Piece.Stands.text_ne_nil {piece : Piece} {rest : List Char} (stands : piece.Stands rest) :
    piece.text ≠ [] := by
  cases stands with
  | item stands shared => exact stands.text_ne_nil
  | zeroWidth => exact List.cons_ne_nil _ _
  | markup opens runs ends => rcases opens with rfl | rfl <;> exact List.cons_ne_nil _ _

theorem eq_nextLine_of_not_shared {c : Char} (blank : Text.isHorizontalBlank c = true)
    (apart : ¬ (Item.blank c).Shared) : c = '\u0085' := by
  simp only [Text.isHorizontalBlank, Text.isWhiteSpace] at blank
  simp only [Item.Shared, Text.isGrammarBlank] at apart
  grind

theorem plain_of_no_item {cs : List Char}
    (ends : ∀ (item : Item) (rest : List Char), cs = item.text ++ rest → ¬ item.Stands rest) :
    Plain cs where
  named := by
    intro first
    obtain ⟨rest, rfl⟩ := List.head?_eq_some_iff.mp first
    exact ends (.blank '\u0085') rest rfl (.blank rest (by decide))
  closed := by
    rintro ⟨rest, rfl⟩
    obtain ⟨behind, whole, stands⟩ := Comment.stands_of_body?
      (rfl : Comment.body? ('/' :: '*' :: rest) = some _)
    exact ends (.comment _) behind whole stands

/-- Where neither a piece nor what the scanner alone takes for an item stands, there is no item. -/
theorem Plain.no_item {cs : List Char} (plain : Plain cs) (settled : Settled cs) (item : Item)
    (rest : List Char) (whole : cs = item.text ++ rest) : ¬ item.Stands rest := by
  intro stands
  have apart : ¬ item.Shared := by
    intro shared
    obtain ⟨text, same⟩ := settled (.item item) rest whole (.item stands shared)
    cases same
  cases stands with
  | pair => exact apart trivial
  | lineBreak => exact apart trivial
  | @blank c _ runs =>
    obtain rfl := eq_nextLine_of_not_shared runs apart
    exact plain.named (by rw [whole]; rfl)
  | @line inner => exact apart ⟨inner, .inl rfl⟩
  | @block inner => exact apart ⟨inner, .inr rfl⟩
  | @unclosed inner => exact plain.closed ⟨inner, by rw [whole, List.append_nil]; rfl⟩

/-- The scanner comes to the end of a gap exactly if each of its pieces is an item and what follows
begins with none. -/
theorem Gap.trivia_iff {cs rest : List Char} {pieces : List Piece} (gap : Gap cs pieces rest)
    (settled : Settled rest) {items : List Item} :
    Comment.Trivia cs items rest ↔ pieces = items.map .item ∧ Plain rest := by
  constructor
  · intro run
    -- The gap is followed, since a run may end before it; the first piece is the first item by
    -- `eq_item`, and a run that ends too early or too late has the wrong length.
    induction gap generalizing items with
    | none rest =>
      cases run with
      | none ends => exact ⟨rfl, plain_of_no_item ends⟩
      | @cons item _ behind _ stands more =>
        have shorter := congrArg List.length more.split
        have full := List.length_pos_iff.mpr stands.text_ne_nil
        simp only [List.length_append] at shorter
        omega
    | @cons piece pieces behind rest stands more ih =>
      generalize whole : piece.text ++ behind = cs at run
      cases run with
      | none ends =>
        have shorter := congrArg List.length more.split
        have same := congrArg List.length whole
        have full := List.length_pos_iff.mpr stands.text_ne_nil
        simp only [List.length_append] at shorter same
        omega
      | cons stands' more' =>
        obtain ⟨rfl, rfl⟩ := stands.eq_item stands' whole
        obtain ⟨rfl, plain⟩ := ih settled more'
        exact ⟨rfl, plain⟩
  · rintro ⟨rfl, plain⟩
    induction items generalizing cs with
    | nil =>
      cases gap
      exact .none (plain.no_item settled)
    | cons item items ih =>
      cases gap with
      | cons stands more =>
        cases stands with
        | item stands _ => exact .cons stands (ih more)

/-! ## What the grammar takes for trivia -/

namespace Lexical

theorem drop_runOf (p : Char → Bool) (cs : List Char) :
    cs.drop (runOf p cs) = cs.dropWhile p := by
  have parts : cs.takeWhile p ++ cs.dropWhile p = cs := List.takeWhile_append_dropWhile
  calc cs.drop (runOf p cs)
      = (cs.takeWhile p ++ cs.dropWhile p).drop (cs.takeWhile p).length := by rw [parts]; rfl
    _ = cs.dropWhile p := List.drop_left

theorem exists_run (p : Char → Bool) (cs : List Char) :
    ∃ front rest, cs = front ++ rest ∧ front.length = runOf p cs ∧ (∀ c ∈ front, p c = true) ∧
      ∀ c, rest.head? = some c → p c = false := by
  obtain ⟨front, split, runs, stops⟩ := Text.dropWhile_eq_iff.mp (drop_runOf p cs).symm
  refine ⟨front, _, split, ?_, runs, stops⟩
  have length := congrArg List.length split
  have most : runOf p cs ≤ cs.length := (List.takeWhile_prefix p).length_le
  simp only [List.length_append, List.length_drop] at length
  omega

/-! ### Blanks -/

theorem isGrammarBlank_cases {c : Char} (blank : Text.isGrammarBlank c = true) :
    Text.isLineBreak c = true ∨ Text.isHorizontalBlank c = true ∨ c = '\u200b' ∨ c = '\u2060' := by
  simp only [Text.isGrammarBlank, Text.isHorizontalBlank, Text.isWhiteSpace] at blank ⊢
  grind

theorem isGrammarBlank_of_isLineBreak {c : Char} (ends : Text.isLineBreak c = true) :
    Text.isGrammarBlank c = true := by
  simp [Text.isGrammarBlank, ends]

theorem exists_gap_blanks {front rest : List Char}
    (blank : ∀ c ∈ front, Text.isGrammarBlank c = true)
    (stops : ∀ c, rest.head? = some c → Text.isGrammarBlank c = false) :
    ∃ pieces, Gap (front ++ rest) pieces rest := by
  -- A pair of a carriage return and a line feed is one piece, so the length shrinks by two at times.
  induction size : front.length using Nat.strongRecOn generalizing front with
  | ind n ih =>
    cases front with
    | nil => exact ⟨[], .none rest⟩
    | cons c front =>
      obtain ⟨first, others⟩ := List.forall_mem_cons.mp blank
      rw [List.length_cons] at size
      by_cases pair : c = '\r' ∧ front.head? = some '\n'
      · obtain ⟨rfl, feed⟩ := pair
        obtain ⟨front, rfl⟩ := List.head?_eq_some_iff.mp feed
        rw [List.length_cons] at size
        obtain ⟨pieces, more⟩ := ih front.length (by omega) (List.forall_mem_cons.mp others).2 rfl
        exact ⟨_, .cons (.item (.pair _) trivial) more⟩
      · obtain ⟨pieces, more⟩ := ih front.length (by omega) others rfl
        rcases isGrammarBlank_cases first with ends | runs | zero
        · refine ⟨_, .cons (.item (.lineBreak ends ?_) trivial) more⟩
          intro carriage feed
          cases front with
          | nil => exact absurd (stops _ feed) (by decide)
          | cons d front => exact pair ⟨carriage, feed⟩
        · exact ⟨_, .cons (.item (.blank _ runs) first) more⟩
        · exact ⟨_, .cons (.zeroWidth _ zero) more⟩

/-! ### Comments -/

theorem exists_of_blockTail {cs : List Char} {n : Nat} (closed : blockTail cs = some n) :
    ∃ inner rest, cs = inner ++ '*' :: '/' :: rest ∧ n = inner.length + 2 ∧
      ¬ ['*', '/'] <:+: inner ++ ['*'] := by
  fun_induction blockTail cs generalizing n with
  | case1 => cases closed
  | case2 rest =>
    cases closed
    exact ⟨[], rest, rfl, rfl, by simp [Comment.endMark_cons]⟩
  | case3 c cs early ih =>
    obtain ⟨m, inside, rfl⟩ := Option.map_eq_some_iff.mp closed
    obtain ⟨inner, rest, rfl, rfl, first⟩ := ih inside
    refine ⟨c :: inner, rest, rfl, rfl, ?_⟩
    rw [List.cons_append, Comment.endMark_cons, not_or]
    refine ⟨?_, first⟩
    rintro ⟨star, slash⟩
    cases inner with
    | nil => simp at slash
    | cons d inner =>
      obtain rfl : d = '/' := by simpa using slash
      exact early _ star rfl

theorem blockTail_ne_none (inner rest : List Char) :
    blockTail (inner ++ '*' :: '/' :: rest) ≠ none := by
  induction inner with
  | nil => exact nofun
  | cons c inner ih =>
    intro none
    rw [List.cons_append] at none
    unfold blockTail at none
    split at none
    · rename_i empty
      cases empty
    · cases none
    · rename_i shape
      obtain ⟨rfl, rfl⟩ := List.cons.inj shape
      exact ih (Option.map_eq_none_iff.mp none)

/-- A comment that the grammar takes is one to the scanner. -/
theorem exists_comment {cs : List Char} (some : lineComment cs + blockComment cs ≠ 0) :
    ∃ body rest, cs = body ++ rest ∧ body.length = lineComment cs + blockComment cs ∧
      (Item.comment body).Stands rest ∧ (Item.comment body).Shared := by
  by_cases line : lineComment cs = 0
  · rw [line, Nat.zero_add] at some ⊢
    unfold blockComment at some ⊢
    split at some
    · split at some
      · rename_i n closed
        obtain ⟨inner, rest, rfl, rfl, first⟩ := exists_of_blockTail closed
        exact ⟨'/' :: '*' :: (inner ++ ['*', '/']), rest, by simp, by simp,
          .block rest first, inner, .inr rfl⟩
      · exact absurd rfl some
    · exact absurd rfl some
  · unfold lineComment at line ⊢
    split at line
    · rename_i r
      obtain ⟨inner, rest, split, length, runs, stops⟩ := exists_run (!Text.isLineBreak ·) r
      refine ⟨'/' :: '/' :: inner, rest, ?_, ?_, .line ?_ ?_, inner, .inl rfl⟩
      · rw [List.cons_append, List.cons_append, ← split]
      · have block : blockComment ('/' :: '/' :: r) = 0 := rfl
        rw [List.length_cons, List.length_cons, length, block]
        omega
      · simpa using runs
      · simpa using stops
    · exact absurd rfl line

theorem comment_ne_zero {body rest : List Char} (stands : (Item.comment body).Stands rest)
    (shared : (Item.comment body).Shared) :
    lineComment (body ++ rest) + blockComment (body ++ rest) ≠ 0 := by
  obtain ⟨inner, rfl | rfl⟩ := shared
  · simp [lineComment]
  · have closed := blockTail_ne_none inner rest
    simp only [List.cons_append, List.append_assoc, blockComment]
    split
    · omega
    · rename_i none
      exact absurd none closed

/-! ### Runs -/

section

variable {part : List Char → Nat} {first rest : List Char}

theorem run_passed (first rest : List Char) :
    run part first.length (first ++ rest) = first.length + run part 0 rest := by
  induction first with
  | nil => simp
  | cons c first ih =>
    rw [List.cons_append, List.length_cons, run, ih]
    omega

theorem run_taken (taken : part (first ++ rest) = first.length) (nonempty : first ≠ []) :
    run part 0 (first ++ rest) = first.length + run part 0 rest := by
  obtain ⟨c, first, rfl⟩ := List.exists_cons_of_ne_nil nonempty
  rw [List.cons_append] at taken ⊢
  rw [run, taken, List.length_cons]
  simp only [run_passed]
  omega

/-- A run of parts that are gaps is one, and ends where no part stands. -/
theorem exists_gap_run (parts : ∀ cs, part cs ≠ 0 → ∃ first rest pieces, cs = first ++ rest ∧
      first.length = part cs ∧ Gap cs pieces rest) (cs : List Char) :
    ∃ pieces, Gap cs pieces (cs.drop (run part 0 cs)) ∧ part (cs.drop (run part 0 cs)) = 0 := by
  -- `run` goes on character by character, but a part is passed over as a whole (`run_taken`), so the
  -- induction is on the length of what is left behind it.
  induction size : cs.length using Nat.strongRecOn generalizing cs with
  | ind n ih =>
    by_cases none : part cs = 0
    · have stopped : run part 0 cs = 0 := by
        cases cs with
        | nil => rfl
        | cons c cs => rw [run, none]
      rw [stopped]
      exact ⟨[], .none cs, none⟩
    · obtain ⟨first, rest, pieces, rfl, length, gap⟩ := parts cs none
      have nonempty : first ≠ [] := by
        rintro rfl
        exact none length.symm
      have full := List.length_pos_iff.mpr nonempty
      rw [List.length_append] at size
      obtain ⟨more, gap', stops⟩ := ih rest.length (by omega) rest rfl
      rw [run_taken length.symm nonempty, List.drop_append]
      simp only [Nat.add_sub_cancel_left]
      rw [List.drop_of_length_le (by omega), List.nil_append]
      exact ⟨pieces ++ more, gap.append gap', stops⟩

end

/-! ### Trivia -/

theorem exists_markup {cs : List Char} (some : markupComment cs ≠ 0) :
    ∃ text rest, cs = text ++ rest ∧ text.length = markupComment cs ∧
      (Piece.markup text).Stands rest := by
  have line (opening r : List Char)
      (opens : opening = ['<', '!', '-', '-'] ∨ opening = ['-', '-', '>'])
      (length : markupComment (opening ++ r) =
        opening.length + runOf (fun c => !Text.isLineBreak c || c = '\r') r) :
      ∃ text rest, opening ++ r = text ++ rest ∧ text.length = markupComment (opening ++ r) ∧
        (Piece.markup text).Stands rest := by
    obtain ⟨inner, rest, split, size, runs, stops⟩ :=
      exists_run (fun c => !Text.isLineBreak c || c = '\r') r
    refine ⟨opening ++ inner, rest, ?_, ?_, .markup opens ?_ ?_⟩
    · rw [List.append_assoc, ← split]
    · rw [List.length_append, size, length]
    · simpa using runs
    · simpa using stops
  unfold markupComment at some
  split at some
  · rename_i r
    exact line ['<', '!', '-', '-'] r (.inl rfl) rfl
  · rename_i r
    exact line ['-', '-', '>'] r (.inr rfl) rfl
  · exact absurd rfl some

theorem behind_ne_zero {gap length : Nat} (some : behind gap length ≠ 0) :
    length ≠ 0 ∧ behind gap length = gap + length := by
  unfold behind at some ⊢
  split at some
  · exact absurd rfl some
  · rename_i positive
    exact ⟨positive, if_neg positive⟩

theorem exists_gap_behind {p : Char → Bool} {cs behind : List Char} {piece : Piece}
    (blank : ∀ c, p c = true → Text.isGrammarBlank c = true)
    (found : cs.drop (runOf p cs) = piece.text ++ behind) (stands : piece.Stands behind)
    (visible : ∀ c, piece.text.head? = some c → Text.isGrammarBlank c = false) :
    ∃ first rest pieces, cs = first ++ rest ∧ first.length = runOf p cs + piece.text.length ∧
      Gap cs pieces rest := by
  obtain ⟨front, rest, rfl, length, runs, -⟩ := exists_run p cs
  rw [← length, List.drop_left] at found
  subst found
  have stops : ∀ c, (piece.text ++ behind).head? = some c → Text.isGrammarBlank c = false := by
    intro c first
    apply visible c
    rwa [List.head?_append, Option.or_of_isSome (by simpa using stands.text_ne_nil)] at first
  obtain ⟨pieces, gap⟩ := exists_gap_blanks (fun c mem => blank c (runs c mem)) stops
  refine ⟨front ++ piece.text, behind, pieces ++ [piece], ?_, ?_, gap.append (.single stands)⟩
  · rw [List.append_assoc]
  · rw [List.length_append, length]

/-- In front of a comment in the style of a markup language. -/
def isMarkupBlank (c : Char) : Bool := Text.isAsciiBlank c || c = '\u2028' || c = '\u2029'

theorem isGrammarBlank_of_isMarkupBlank {c : Char} (blank : isMarkupBlank c = true) :
    Text.isGrammarBlank c = true := by
  simp only [isMarkupBlank, Text.isGrammarBlank, Text.isLineBreak] at blank ⊢
  grind

theorem commentPart_cases (markup : Bool) (cs : List Char) :
    (commentPart markup cs ≠ 0 ∧ commentPart markup cs =
      behind (runOf isMarkupBlank cs) (markupComment (cs.drop (runOf isMarkupBlank cs)))) ∨
    commentPart markup cs = behind (runOf Text.isGrammarBlank cs)
      (lineComment (cs.drop (runOf Text.isGrammarBlank cs)) +
        blockComment (cs.drop (runOf Text.isGrammarBlank cs))) := by
  cases markup with
  | false => exact .inr rfl
  | true =>
    by_cases marked : behind (runOf isMarkupBlank cs)
        (markupComment (cs.drop (runOf isMarkupBlank cs))) = 0
    · exact .inr (if_pos marked)
    · have taken : commentPart true cs = behind (runOf isMarkupBlank cs)
          (markupComment (cs.drop (runOf isMarkupBlank cs))) := if_neg marked
      exact .inl ⟨taken ▸ marked, taken⟩

theorem exists_gap_part {markup : Bool} {cs : List Char} (some : commentPart markup cs ≠ 0) :
    ∃ first rest pieces, cs = first ++ rest ∧ first.length = commentPart markup cs ∧
      Gap cs pieces rest := by
  rcases commentPart_cases markup cs with ⟨-, marked⟩ | plain
  · rw [marked] at some ⊢
    obtain ⟨positive, length⟩ := behind_ne_zero some
    obtain ⟨text, rest, found, size, stands⟩ := exists_markup positive
    rw [length, ← size]
    refine exists_gap_behind (fun c => isGrammarBlank_of_isMarkupBlank) found stands ?_
    intro c first
    cases stands with
    | markup opens => rcases opens with rfl | rfl <;> cases first <;> decide
  · rw [plain] at some ⊢
    obtain ⟨positive, length⟩ := behind_ne_zero some
    obtain ⟨body, rest, found, size, stands, shared⟩ := exists_comment positive
    rw [length, ← size]
    have whole : (Piece.item (.comment body)).Stands rest := .item stands shared
    refine exists_gap_behind (fun c => id) found whole ?_
    intro c first
    obtain ⟨inner, rfl | rfl⟩ := shared <;> cases first <;> decide

theorem settled_of_no_comment {cs : List Char}
    (visible : ∀ c, cs.head? = some c → Text.isGrammarBlank c = false)
    (none : lineComment cs + blockComment cs = 0) : Settled cs := by
  rintro piece rest rfl stands
  cases stands with
  | @item i _ stands shared =>
    cases stands with
    | pair => exact absurd (visible _ rfl) (by decide)
    | @lineBreak c _ ends =>
      exact absurd ((visible c rfl).symm.trans (isGrammarBlank_of_isLineBreak ends)) nofun
    | @blank c => exact absurd ((visible c rfl).symm.trans shared) nofun
    | line runs ends => exact absurd none (comment_ne_zero (.line runs ends) shared)
    | block _ first => exact absurd none (comment_ne_zero (.block rest first) shared)
    | unclosed runs => exact absurd none (comment_ne_zero (.unclosed runs) shared)
  | zeroWidth _ zero =>
    rcases zero with rfl | rfl <;> exact absurd (visible _ rfl) (by decide)
  | markup => exact ⟨_, rfl⟩

theorem exists_gap_of_no_part {markup : Bool} {cs : List Char} (none : commentPart markup cs = 0) :
    ∃ pieces, Gap cs pieces (cs.drop (runOf Text.isGrammarBlank cs)) ∧
      Settled (cs.drop (runOf Text.isGrammarBlank cs)) := by
  have bare : lineComment (cs.drop (runOf Text.isGrammarBlank cs)) +
      blockComment (cs.drop (runOf Text.isGrammarBlank cs)) = 0 := by
    rcases commentPart_cases markup cs with ⟨some, -⟩ | plain
    · exact absurd none some
    · rw [none, behind] at plain
      split at plain
      · assumption
      · omega
  obtain ⟨front, rest, rfl, length, blank, stops⟩ := exists_run Text.isGrammarBlank cs
  rw [← length, List.drop_left] at bare ⊢
  obtain ⟨pieces, gap⟩ := exists_gap_blanks blank stops
  exact ⟨pieces, gap, settled_of_no_comment stops bare⟩

/-- What the grammar takes for trivia is a gap, behind which no further piece stands. -/
theorem exists_gap_trivia (markup : Bool) (cs : List Char) :
    ∃ pieces, Gap cs pieces (cs.drop (trivia markup cs)) ∧
      Settled (cs.drop (trivia markup cs)) := by
  obtain ⟨pieces, gap, none⟩ := exists_gap_run (fun _ => @exists_gap_part markup _) cs
  obtain ⟨blanks, gap', settled⟩ := exists_gap_of_no_part none
  have whole : cs.drop (trivia markup cs) = (cs.drop (comments markup cs)).drop
      (runOf Text.isGrammarBlank (cs.drop (comments markup cs))) := by
    rw [trivia, List.drop_drop]
  rw [whole]
  exact ⟨pieces ++ blanks, gap.append gap', settled⟩

end Lexical

end Syntax

end Dartify
