import Dartify.Proofs.Dart.Coverage
import Dartify.Proofs.Dart.LineFeeds
import Dartify.Proofs.Dart.Rendering

/-! Line comments where files meet. The files of a program are written one behind the other with
nothing in between, and a comment writes a line feed only if one follows it in its own file. Main
statement: every line comment ends before more is written, exactly if one that its file ends with
is the last thing written at all. -/
namespace Dartify.Program

open Dart

/-! ## Line comments -/

/-- Whether a comment runs to the end of its line. -/
def isLineComment (text : String) : Bool := "//".toList.isPrefixOf text.toList

/-- A text that is over, or begins with a line feed. -/
def StartsLine (text : String) : Prop := ∀ c, text.toList.head? = some c → c = '\n'

/-- Nothing stands on the line of a line comment behind it. -/
def LineCommentsEnd (pieces : List Piece) : Prop :=
  ∀ before text endsLine after, pieces = before ++ .comment text endsLine :: after →
    isLineComment text = true → StartsLine ((if endsLine then "\n" else "") ++ render after)

theorem isLineComment_body {cs body : List Char} (h : Comment.body? cs = some body)
    (line : isLineComment (String.ofList body) = true) :
    ∃ inner, cs = '/' :: '/' :: inner ∧ body = '/' :: '/' :: Comment.lineText inner := by
  unfold Comment.body? at h
  split at h
  · rename_i inner
    exact ⟨inner, rfl, (Option.some.inj h).symm⟩
  · cases h
    simp [isLineComment] at line
  · cases h

/-- Behind a line comment the text is over, or its line is. -/
theorem breaksLine_lineText {inner rest : List Char}
    (split : Comment.lineText inner ++ rest = inner) :
    Comment.breaksLine rest = false ↔ rest = [] := by
  have whole : Comment.lineText inner ++ inner.dropWhile (!Text.isLineBreak ·) = inner :=
    List.takeWhile_append_dropWhile
  have behind : rest = inner.dropWhile (!Text.isLineBreak ·) :=
    List.append_cancel_left (split.trans whole.symm)
  cases rest with
  | nil => simp [Comment.breaksLine]
  | cons c rest =>
    have first := List.head?_dropWhile_not (!Text.isLineBreak ·) inner
    rw [← behind] at first
    have ends : Text.isLineBreak c = true := by simpa using first
    simp [Comment.breaksLine_lineBreak rest ends]

/-- A line comment ends its line, unless its text is over. -/
theorem endsLine_lineComment {text : List Char} {r : Comment.Range} (stands : r.StandsIn text)
    (line : isLineComment (r.text text) = true) :
    r.endsLine = false ↔ r.stop = Text.bytes text := by
  obtain ⟨front, body, rest, rfl, comment, rfl⟩ := stands.parts
  rw [Comment.Range.text_eq] at line
  obtain ⟨inner, opening, rfl⟩ := isLineComment_body comment line
  have split : Comment.lineText inner ++ rest = inner := by simpa using opening
  simp only [breaksLine_lineText split, ← Text.bytes_eq_zero_iff, Text.bytes_append]
  omega

/-! ## Rendering -/

theorem startsLine_lineFeed (text : String) : StartsLine ("\n" ++ text) := by
  intro c first
  simpa using first.symm

theorem startsLine_render_iff (pieces : List Piece) :
    StartsLine (render pieces) ↔ pieces = [] ∨ pieces.head? = some .lineFeed := by
  cases pieces with
  | nil => simp [StartsLine, render]
  | cons piece pieces =>
    rw [render_cons]
    cases piece with
    | code text => simp [StartsLine, Piece.render]
    | comment text endsLine => simp [StartsLine, Piece.render]
    | lineFeed => simp [StartsLine, Piece.render]

/-! ## Programs -/

/-- What some files write, every mark with the file that it belongs to. -/
def marksOf (files : List Tree) : List (Tree × Mark) :=
  files.flatMap fun file => (marks file).map (file, ·)

/-- The piece of a mark in its file. -/
def pieceOf (m : Tree × Mark) : Piece := m.2.piece m.1.text

theorem marksOf_cons (file : Tree) (files : List Tree) :
    marksOf (file :: files) = (marks file).map (file, ·) ++ marksOf files :=
  List.flatMap_cons

theorem writeFiles_eq_ok {files : List Tree} {out : String}
    (done : (writeFiles files).1 = .ok out) :
    ∃ lists, files.mapM emit = .ok lists ∧ out = render lists.flatten ∧
      lists.flatten = (marksOf files).map pieceOf := by
  induction files generalizing out with
  | nil =>
    cases done
    exact ⟨[], rfl, rfl, rfl⟩
  | cons file files ih =>
    rw [writeFiles] at done
    cases emitted : emit file with
    | error stop =>
      rw [emitted] at done
      cases done
    | ok pieces =>
      simp only [emitted] at done
      cases rest : (writeFiles files).1 with
      | error stop =>
        rw [rest] at done
        cases done
      | ok later =>
        obtain ⟨lists, each, rfl, shown⟩ := ih rest
        rw [rest] at done
        have joined : render pieces ++ render lists.flatten = out := Except.ok.inj done
        obtain ⟨-, written⟩ := (emit_eq_ok_iff file pieces).mp emitted
        refine ⟨pieces :: lists, ?_, ?_, ?_⟩
        · rw [List.mapM_cons, emitted, each]
          rfl
        · rw [List.flatten_cons, render_append, joined]
        · rw [List.flatten_cons, shown, marksOf_cons, List.map_append, List.map_map, written]
          rfl

theorem feeds_marksOf (files : List Tree) : FeedsFollowCode false ((marksOf files).map (·.2)) := by
  induction files with
  | nil => trivial
  | cons file files ih =>
    have same : ((marks file).map (file, ·)).map (·.2) = marks file := by
      rw [List.map_map]
      exact List.map_id (marks file)
    rw [marksOf_cons, List.map_append, same]
    exact (feeds_marks file).append ih

theorem head_ne_lineFeed {files : List Tree} {before after : List (Tree × Mark)} {file : Tree}
    {r : Comment.Range} (split : marksOf files = before ++ (file, .comment r) :: after) :
    (after.map pieceOf).head? ≠ some .lineFeed := by
  intro first
  cases after with
  | nil => cases first
  | cons next after =>
    obtain ⟨other, m⟩ := next
    cases m with
    | code text => cases first
    | comment r => cases first
    | lineFeed =>
      have feeds := feeds_marksOf files
      rw [split, List.map_append] at feeds
      exact FeedsFollowCode.not_behind_comment feeds

theorem standsIn_of_split {files : List Tree} {before after : List (Tree × Mark)} {file : Tree}
    {r : Comment.Range} (split : marksOf files = before ++ (file, .comment r) :: after) :
    r.StandsIn file.text := by
  have mem : (file, Mark.comment r) ∈ marksOf files := by
    rw [split]
    exact List.mem_append_right _ List.mem_cons_self
  obtain ⟨other, -, mem⟩ := List.mem_flatMap.mp mem
  obtain ⟨m, mem, same⟩ := List.mem_map.mp mem
  cases same
  exact comment_mem_marks mem

/-- Every line comment of a program ends before more is written, exactly if a line comment that ends
the text of its file is the last thing that the program writes. -/
theorem write_lineCommentsEnd_iff {p : Program} {out : String} (done : p.write.1 = .ok out) :
    ∃ lists, p.files.mapM emit = .ok lists ∧ out = render lists.flatten ∧
      (LineCommentsEnd lists.flatten ↔
        ∀ before file r after, marksOf p.files = before ++ (file, .comment r) :: after →
          isLineComment (r.text file.text) = true → r.stop = Text.bytes file.text →
          after = []) := by
  obtain ⟨lists, each, out_eq, shown⟩ := writeFiles_eq_ok done
  refine ⟨lists, each, out_eq, ?_⟩
  rw [shown]
  constructor
  · intro ends before file r after split line stop
    -- Nothing in its own file ends the line of the comment, so what follows would have to.
    have runs : r.endsLine = false := (endsLine_lineComment (standsIn_of_split split) line).mpr stop
    have behind := ends (before.map pieceOf) (r.text file.text) r.endsLine (after.map pieceOf)
      (by rw [split, List.map_append]; rfl) line
    rw [runs] at behind
    rcases (startsLine_render_iff _).mp (by simpa using behind) with finished | feed
    · exact List.map_eq_nil_iff.mp finished
    · exact absurd feed (head_ne_lineFeed split)
  · intro last before text endsLine after split line
    obtain ⟨us, rest, whole, rfl, shape⟩ := List.map_eq_append_iff.mp split
    obtain ⟨⟨file, m⟩, vs, rfl, piece, rfl⟩ := List.map_eq_cons_iff.mp shape
    cases m with
    | code text => cases piece
    | lineFeed => cases piece
    | comment r =>
      cases piece
      cases runs : r.endsLine with
      | true => exact startsLine_lineFeed _
      | false =>
        have stop := (endsLine_lineComment (standsIn_of_split whole) line).mp runs
        have finished := last us file r vs whole line stop
        subst finished
        exact (startsLine_render_iff []).mpr (Or.inl rfl)

/-- Two files, the first of which ends with a line comment. -/
def adjoining : Host :=
  .ofFiles [(.ofText "a.ts", "var a;\n// c"), (.ofText "b.ts", "var b;\n")]

/-- The second file is written behind the comment that the first one ends with. -/
theorem write_adjoining :
    ∃ p lists, (load adjoining [.ofText "a.ts", .ofText "b.ts"]).1 = .ok p ∧
      p.write.1 = .ok " var a ;\n // c var b ;\n" ∧ p.files.mapM emit = .ok lists ∧
      ¬ LineCommentsEnd lists.flatten := by
  have facts : (load adjoining [.ofText "a.ts", .ofText "b.ts"]).1.toOption.any (fun p =>
      p.write.1.toOption = some " var a ;\n // c var b ;\n" ∧
        (p.files.mapM emit).toOption = some
          [[.code "var", .code "a", .code ";", .lineFeed, .comment "// c" false],
            [.code "var", .code "b", .code ";", .lineFeed]]) = true := by
    decide +kernel
  obtain ⟨p, loaded, facts⟩ := exists_ok_of_any facts
  obtain ⟨out, each⟩ := of_decide_eq_true facts
  refine ⟨p, _, loaded, ok_of_toOption out, ok_of_toOption each, ?_⟩
  intro ends
  have behind := ends [.code "var", .code "a", .code ";", .lineFeed] "// c" false
    [.code "var", .code "b", .code ";", .lineFeed] rfl (by decide)
  have starts := (startsLine_render_iff _).mp (by simpa using behind)
  simp at starts

theorem write_single :
    ∃ p : Program, p.write.1 = .ok " var a ;\n // c" ∧
      ∃ lists, p.files.mapM emit = .ok lists ∧ " var a ;\n // c" = render lists.flatten ∧
        (LineCommentsEnd lists.flatten ↔
          ∀ before file r after, marksOf p.files = before ++ (file, .comment r) :: after →
            isLineComment (r.text file.text) = true → r.stop = Text.bytes file.text →
            after = []) := by
  have facts : (load adjoining [.ofText "a.ts"]).1.toOption.any (fun p =>
      p.write.1.toOption = some " var a ;\n // c") = true := by
    decide +kernel
  obtain ⟨p, -, out⟩ := exists_ok_of_any facts
  have done := ok_of_toOption (of_decide_eq_true out)
  exact ⟨p, done, write_lineCommentsEnd_iff done⟩

end Dartify.Program
