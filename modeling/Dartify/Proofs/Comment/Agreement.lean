import Dartify.Proofs.Abstraction.Statements
import Dartify.Proofs.Outcome
import Dartify.Proofs.Tree.Preorder

/-! Where the scanner of comments agrees with the grammar on what stands in front of a node. Main
statement: the scanner comes from the end of the token before to the first token of the node, and
finds just the comments of the gap, exactly if the gap holds neither blanks without width nor
comments in the style of a markup language and the node begins with nothing that the scanner passes
over. -/
namespace Dartify

open Syntax

/-! ## The gap in front of a node -/

/-- In front of every node but that of the file lies a gap of the text. -/
theorem Tree.exists_gapAt {fileName : String} {text : List Char} {t : Tree} {id : NodeId} {n : Node}
    (ok : Tree.ofText fileName text = .ok t) (node : t.node? id = some n) (below : id ≠ t.root) :
    ∃ pieces behind, GapAt text n.site.fullStart n.site.start pieces behind := by
  obtain ⟨c, s, here, rest, -, covers, ⟨markup, blank⟩, rfl, isFile⟩ := exists_sketch_of_ofText ok
  obtain ⟨stop, kind, parts, rfl, along⟩ := isFile.sites
  obtain ⟨token, mem, stands⟩ := along.exists_of_mem (Sketch.site_mem_parts node below)
  rw [stands.start, stands.fullStart]
  rcases List.mem_append.mp mem with mem | mem
  · exact covers.exists_gapAt mem stands.whole
  · obtain rfl := List.mem_singleton.mp mem
    obtain ⟨pieces, gap⟩ := covers.exists_gapAt_end blank
    exact ⟨pieces, [], gap⟩

/-! ## Scanning a gap -/

/-- Scanning from an offset comes to a rest of the text: behind the interpreter line that is passed
over, if any, the run of trivia ends there. -/
def Comment.ComesTo (pos : Nat) (cs rest : List Char) : Prop :=
  ∃ items, Trivia (cs.drop (passedOver pos cs).length) items rest

/-- The scanner agrees with the grammar on the gap in front of a node. -/
structure Tree.Agrees (t : Tree) (n : Node) (pieces : List Piece) (behind : List Char) : Prop where
  /-- Scanning from the end of the token before comes to the first token of the node. -/
  consumed : Comment.ComesTo n.site.fullStart (pieces.flatMap Piece.text ++ behind) behind
  /-- What is found are the comments of the gap behind its first line break, or all of them at the
  start of the text. -/
  reported : ∀ start stop, (∃ r ∈ t.leadingComments n, r.start = start ∧ r.stop = stop) ↔
    ∃ before body after, pieces = before ++ .item (.comment body) :: after ∧
      (n.site.fullStart = 0 ∨ ∃ text, .item (.lineBreak text) ∈ before) ∧
      start = n.site.fullStart + Text.bytes (before.flatMap Piece.text) ∧
      stop = start + Text.bytes body
  /-- No comment that is found ends behind the beginning of the node. -/
  within : ∀ r ∈ t.leadingComments n, r.stop ≤ n.site.start

/-- Nothing in the gap in front of a node, or at its beginning, is read in two ways. -/
structure Node.Legible (n : Node) (pieces : List Piece) (behind : List Char) : Prop where
  /-- There are neither blanks without width nor comments in the style of a markup language. -/
  shared : ∃ items : List Comment.Item, pieces = items.map .item
  plain : Plain behind
  /-- The node does not begin with an interpreter line. -/
  bare : n.site.start = 0 → ¬ ['#', '!'] <+: behind

theorem Syntax.Piece.Stands.ne_hash {piece : Piece} {rest : List Char}
    (stands : piece.Stands rest) : piece.text.head? ≠ some '#' := by
  cases stands with
  | item stands shared =>
    cases stands with
    | lineBreak ends =>
      rintro ⟨⟩
      exact absurd ends (by decide)
    | blank _ runs =>
      rintro ⟨⟩
      exact absurd runs (by decide)
    | _ => exact nofun
  | zeroWidth _ zero => rcases zero with rfl | rfl <;> exact nofun
  | markup opens => rcases opens with rfl | rfl <;> exact nofun

section

variable {text behind : List Char} {start stop : Nat} {pieces : List Piece}

/-- In front of an interpreter line the gap is empty, and elsewhere nothing is passed over. -/
theorem Syntax.GapAt.passedOver_eq_nil (gap : GapAt text start stop pieces behind)
    (bare : stop = 0 → ¬ ['#', '!'] <+: behind) :
    Comment.passedOver start (pieces.flatMap Piece.text ++ behind) = [] := by
  unfold Comment.passedOver
  split
  · rename_i opens
    obtain ⟨rfl, starts⟩ := opens
    obtain ⟨rest, opens⟩ := Comment.startsInterpreterLine_iff.mp starts
    -- No piece begins with the mark of an interpreter line, so there is no piece in front of it.
    obtain ⟨front, -, empty, wide⟩ := gap.spans
    obtain rfl := (Text.bytes_eq_zero_iff front).mp empty
    cases pieces with
    | nil => exact absurd ⟨rest, opens.symm⟩ (bare wide.symm)
    | cons piece pieces =>
      obtain ⟨_, stands⟩ := gap.gap.exists_stands
      rw [List.flatMap_cons, List.append_assoc] at opens
      have first := congrArg List.head? opens
      rw [List.head?_append, Option.or_of_isSome (by simpa using stands.text_ne_nil)] at first
      exact absurd first stands.ne_hash
  · rfl

theorem Syntax.GapAt.not_comesTo (gap : GapAt text start stop pieces behind) (opening : stop = 0)
    (line : ['#', '!'] <+: behind) :
    ¬ Comment.ComesTo start (pieces.flatMap Piece.text ++ behind) behind := by
  rintro ⟨items, run⟩
  obtain ⟨front, -, early, wide⟩ := gap.spans
  rw [opening, Text.bytes_eq_zero_iff, List.append_eq_nil_iff] at wide
  obtain ⟨rfl, none⟩ := wide
  obtain ⟨rest, rfl⟩ := line
  obtain rfl : start = 0 := early.symm
  have shorter := congrArg List.length run.split
  have passed : 0 < (Comment.passedOver 0 (['#', '!'] ++ rest)).length := Nat.succ_pos _
  rw [none, List.nil_append, List.length_drop, List.length_append] at shorter
  simp only [List.length_append, List.length_cons] at shorter
  omega

theorem Syntax.GapAt.comesTo_iff (gap : GapAt text start stop pieces behind) :
    Comment.ComesTo start (pieces.flatMap Piece.text ++ behind) behind ↔
      (∃ items : List Comment.Item, pieces = items.map .item) ∧ Plain behind ∧
        (stop = 0 → ¬ ['#', '!'] <+: behind) := by
  by_cases bare : stop = 0 → ¬ ['#', '!'] <+: behind
  · simp only [Comment.ComesTo, gap.passedOver_eq_nil bare, List.length_nil, List.drop_zero,
      gap.gap.trivia_iff gap.settled, exists_and_right]
    exact ⟨fun holds => ⟨holds.1, holds.2, bare⟩, fun holds => ⟨holds.1, holds.2.1⟩⟩
  · obtain ⟨opening, line⟩ := Classical.not_imp.mp bare
    have misses := gap.not_comesTo opening (Classical.not_not.mp line)
    exact ⟨fun comes => absurd comes misses, fun holds => absurd holds.2.2 bare⟩

end

theorem Syntax.Piece.flatMap_text_item (items : List Comment.Item) :
    (items.map Piece.item).flatMap Piece.text = items.flatMap Comment.Item.text :=
  List.flatMap_map ..

theorem Comment.mem_ranges_items {start : Nat} {counts : Bool} {items : List Item}
    {rest : List Char} {pos stop : Nat} :
    (∃ r ∈ ranges start counts items rest, r.start = pos ∧ r.stop = stop) ↔
      ∃ before body after, items.map Piece.item = before ++ .item (.comment body) :: after ∧
        (counts = true ∨ ∃ text, .item (.lineBreak text) ∈ before) ∧
        pos = start + Text.bytes (before.flatMap Piece.text) ∧ stop = pos + Text.bytes body := by
  constructor
  · rintro ⟨r, mem, rfl, rfl⟩
    obtain ⟨before, body, after, rfl, counted, rfl⟩ := mem_ranges_iff.mp mem
    refine ⟨before.map .item, body, after.map .item, by simp, ?_, ?_, ?_⟩
    · simpa using counted
    · simp [Piece.flatMap_text_item]
    · simp [Text.bytes_append, Nat.add_assoc]
  · rintro ⟨before, body, after, split, counted, rfl, rfl⟩
    obtain ⟨front, back, rfl, rfl, tail⟩ := List.map_eq_append_iff.mp split
    obtain ⟨item, after, rfl, same, rfl⟩ := List.map_eq_cons_iff.mp tail
    cases same
    refine ⟨_, mem_ranges_iff.mpr ⟨front, body, after, rfl, by simpa using counted, rfl⟩, ?_, ?_⟩
    · simp [Piece.flatMap_text_item]
    · simp [Piece.flatMap_text_item, Text.bytes_append, Nat.add_assoc]

/-- In a gap of items, with nothing behind it that is read in two ways, the comments found are those
among the items. -/
theorem Syntax.GapAt.leading_eq {text behind : List Char} {start stop : Nat}
    {items : List Comment.Item} (gap : GapAt text start stop (items.map .item) behind)
    (plain : Plain behind) (bare : stop = 0 → ¬ ['#', '!'] <+: behind) :
    Comment.leading text start = Comment.ranges start (decide (start = 0)) items behind := by
  have run := (gap.gap.trivia_iff gap.settled).mpr ⟨rfl, plain⟩
  have passed := gap.passedOver_eq_nil bare
  obtain ⟨front, rfl, rfl, -⟩ := gap.spans
  have found : Comment.leading (front ++ ([] ++ ((items.map .item).flatMap Piece.text ++ behind)))
      (Text.bytes front) = _ := Comment.leading_eq_ranges passed run
  rwa [List.nil_append, List.append_nil] at found

theorem Tree.agrees_iff {t : Tree} {n : Node} {pieces : List Piece} {behind : List Char}
    (gap : GapAt t.text n.site.fullStart n.site.start pieces behind) :
    t.Agrees n pieces behind ↔ n.Legible pieces behind := by
  constructor
  · intro agrees
    obtain ⟨shared, plain, bare⟩ := gap.comesTo_iff.mp agrees.consumed
    exact ⟨shared, plain, bare⟩
  · rintro ⟨⟨items, rfl⟩, plain, bare⟩
    have found : t.leadingComments n = _ := gap.leading_eq plain bare
    refine ⟨gap.comesTo_iff.mpr ⟨⟨items, rfl⟩, plain, bare⟩, ?_, ?_⟩
    · intro start stop
      rw [found, Comment.mem_ranges_items, decide_eq_true_eq]
    · intro r mem
      obtain ⟨front, -, start, stop⟩ := gap.spans
      rw [Text.bytes_append, start, Piece.flatMap_text_item] at stop
      exact stop ▸ Comment.stop_le_of_mem_ranges (found ▸ mem)

/-- Between the token before it and a node other than that of the file lies a gap, and the scanner
agrees with the grammar on it exactly if nothing there is read in two ways. -/
theorem Tree.leadingComments_agree_iff {fileName : String} {text : List Char} {t : Tree}
    (ok : Tree.ofText fileName text = .ok t) {id : NodeId} {n : Node} (node : t.node? id = some n)
    (below : id ≠ t.root) :
    (∃ pieces behind, GapAt text n.site.fullStart n.site.start pieces behind) ∧
      ∀ pieces behind, GapAt text n.site.fullStart n.site.start pieces behind →
        (t.Agrees n pieces behind ↔ n.Legible pieces behind) := by
  refine ⟨exists_gapAt ok node below, fun pieces behind gap => agrees_iff ?_⟩
  obtain ⟨c, s, -, -, rfl⟩ := exists_sourceFile_of_ofText ok
  exact gap

/-! ## Two gaps -/

section

variable {inner rest : List Char}

theorem Syntax.Piece.stands_lineFeed (rest : List Char) :
    (Piece.item (.lineBreak ['\n'])).Stands rest :=
  .item (.lineBreak rfl nofun) trivial

theorem Syntax.Piece.stands_lineComment (runs : inner.all (!Text.isLineBreak ·) = true)
    (feed : rest.head? = some '\n') :
    (Piece.item (.comment ('/' :: '/' :: inner))).Stands rest := by
  refine .item (.line (by simpa using runs) fun c first => ?_) ⟨inner, .inl rfl⟩
  rw [feed] at first
  cases first
  rfl

theorem Syntax.Piece.stands_markup (runs : inner.all (!Text.isLineBreak ·) = true)
    (feed : rest.head? = some '\n') :
    (Piece.markup (['<', '!', '-', '-'] ++ inner)).Stands rest := by
  refine .markup (.inl rfl) (fun c mem => .inl ?_) fun c first => ?_
  · simpa using List.all_eq_true.mp runs c mem
  · rw [feed] at first
    cases first
    decide

end

/-- A line feed, a comment of a line and another line feed. -/
def commentLine : List Piece :=
  [.item (.lineBreak ['\n']), .item (.comment ['/', '/', ' ', 'c']), .item (.lineBreak ['\n'])]

/-- The same behind a line with a comment in the style of a markup language. -/
def markupLine : List Piece :=
  .item (.lineBreak ['\n']) :: .markup ['<', '!', '-', '-', ' ', 'h', 't', 'm', 'l'] :: commentLine

theorem gap_commentLine :
    Gap (commentLine.flatMap Piece.text ++ ['y', ';']) commentLine ['y', ';'] :=
  .push (Piece.stands_lineFeed _) (.push (Piece.stands_lineComment rfl rfl)
    (.push (Piece.stands_lineFeed _) (.none _)))

theorem gap_markupLine :
    Gap (markupLine.flatMap Piece.text ++ ['y', ';']) markupLine ['y', ';'] :=
  .push (Piece.stands_lineFeed _) (.push (Piece.stands_markup rfl rfl) gap_commentLine)

/-- Two statements with a gap between them. -/
def parted (pieces : List Piece) : List Char :=
  ['x', ';'] ++ (pieces.flatMap Piece.text ++ ['y', ';'])

theorem gapAt_parted {pieces : List Piece} {n : Node}
    (gap : Gap (pieces.flatMap Piece.text ++ ['y', ';']) pieces ['y', ';'])
    (fullStart : n.site.fullStart = 2)
    (start : n.site.start = Text.bytes (['x', ';'] ++ pieces.flatMap Piece.text)) :
    GapAt (parted pieces) n.site.fullStart n.site.start pieces ['y', ';'] := by
  refine ⟨⟨['x', ';'], rfl, fullStart.symm, start.symm⟩, gap, ?_⟩
  refine Lexical.settled_of_no_comment ?_ rfl
  rintro c ⟨⟩
  rfl

theorem leadingComments_agree_commentLine :
    ∃ t n, Tree.ofText "a.ts" (parted commentLine) = .ok t ∧ t.node? 3 = some n ∧ 3 ≠ t.root ∧
      GapAt (parted commentLine) n.site.fullStart n.site.start commentLine ['y', ';'] ∧
      t.Agrees n commentLine ['y', ';'] := by
  have built : (Tree.ofText "a.ts" (parted commentLine)).toOption.any (fun t =>
      3 ≠ t.root && (t.node? 3).any fun n => n.site.fullStart = 2 && n.site.start = 8) = true := by
    decide +kernel
  obtain ⟨t, ok, facts⟩ := exists_ok_of_any built
  simp only [Bool.and_eq_true, decide_eq_true_eq, Option.any_eq_true] at facts
  obtain ⟨below, n, node, fullStart, start⟩ := facts
  have gap := gapAt_parted gap_commentLine fullStart start
  have legible : n.Legible commentLine ['y', ';'] :=
    ⟨⟨[.lineBreak ['\n'], .comment ['/', '/', ' ', 'c'], .lineBreak ['\n']], rfl⟩,
      ⟨nofun, by rintro ⟨rest, ⟨⟩⟩⟩, by simp [start]⟩
  exact ⟨t, n, ok, node, below, gap,
    ((Tree.leadingComments_agree_iff ok node below).2 _ _ gap).mpr legible⟩

/-- The comment in front of the second statement is not found, since a comment in the style of a
markup language stands in front of it. -/
theorem leadingComments_markupLine :
    ∃ t n, Tree.ofText "a.ts" (parted markupLine) = .ok t ∧ t.node? 3 = some n ∧ 3 ≠ t.root ∧
      GapAt (parted markupLine) n.site.fullStart n.site.start markupLine ['y', ';'] ∧
      t.leadingComments n = [] ∧ ¬ t.Agrees n markupLine ['y', ';'] := by
  have built : (Tree.ofText "a.ts" (parted markupLine)).toOption.any (fun t =>
      3 ≠ t.root && (t.node? 3).any fun n =>
        (n.site.fullStart = 2 && n.site.start = 18) && t.leadingComments n = []) = true := by
    decide +kernel
  obtain ⟨t, ok, facts⟩ := exists_ok_of_any built
  simp only [Bool.and_eq_true, decide_eq_true_eq, Option.any_eq_true] at facts
  obtain ⟨below, n, node, ⟨fullStart, start⟩, none⟩ := facts
  refine ⟨t, n, ok, node, below, gapAt_parted gap_markupLine fullStart start, none, ?_⟩
  intro agrees
  have known := (agrees.reported (n.site.fullStart + 11) (n.site.fullStart + 15)).mpr
    ⟨[.item (.lineBreak ['\n']), .markup ['<', '!', '-', '-', ' ', 'h', 't', 'm', 'l'],
        .item (.lineBreak ['\n'])],
      ['/', '/', ' ', 'c'], _, rfl, .inr ⟨['\n'], List.mem_cons_self⟩, rfl, rfl⟩
  rw [none] at known
  obtain ⟨r, mem, -⟩ := known
  cases mem

end Dartify
