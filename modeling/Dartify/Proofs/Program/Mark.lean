import Dartify.Proofs.Program.Closure
import Dartify.Proofs.Program.Header

/-! Files that are saved behind a byte-order mark. The scanner of comments and the grammar take the
mark for a blank, but the reader of references does not, so the first line no longer belongs to the
header. Main statement: behind a mark a text names no path at all, and a program keeps its files
exactly if each of them is reached over files without a mark. -/
namespace Dartify

namespace Reference

/-- A text behind a byte-order mark. -/
def mark (text : List Char) : List Char := '\ufeff' :: text

/-- The first line behind a mark begins with it, and so does not belong to the header. -/
theorem paths_mark (text : List Char) : paths (mark text) = [] := by
  obtain ⟨line, lines, split⟩ : ∃ line lines,
      Text.split '\n' (mark text) = ('\ufeff' :: line) :: lines := by
    cases pieces : Text.split '\n' text with
    | nil => exact absurd pieces (Text.split_ne_nil _ _)
    | cons line lines => exact ⟨line, lines, by simp [mark, Text.split, pieces]⟩
  obtain ⟨inner, trimmed⟩ := Text.exists_trim_cons (by decide : Text.isWhiteSpace '\ufeff' = false) line
  simp [paths, header, split, trimmed, isHeader]

end Reference

/-- The same files, some of which are saved behind a mark. -/
def Host.marked (host : Host) (files : Path → Bool) : Host where
  read path :=
    if files path then (host.read path).map fun text => .ofList (Reference.mark text.toList)
    else host.read path
  readable := host.readable
  mem_readable path text read := by
    split at read
    · cases answer : host.read path with
      | error cause =>
        rw [answer] at read
        cases read
      | ok text => exact host.mem_readable path text answer
    · exact host.mem_readable path text read

namespace Host

variable {host : Host} {files : Path → Bool} {path : Path}

theorem read_marked (behind : files path = true) :
    (host.marked files).read path =
      (host.read path).map fun text => .ofList (Reference.mark text.toList) :=
  if_pos behind

theorem read_unmarked (plain : files path = false) :
    (host.marked files).read path = host.read path :=
  if_neg (by simp [plain])

end Host

namespace Program

open Relation

/-- A file without a mark refers to a path. -/
def RefersPlainly (host : Host) (marked : Path → Bool) (source reference : Path) : Prop :=
  marked source = false ∧ Refers host source reference

variable {host : Host} {marked : Path → Bool}

theorem isSource_marked (path : Path) : IsSource (host.marked marked) path ↔ IsSource host path := by
  unfold IsSource
  cases behind : marked path with
  | false => rw [Host.read_unmarked behind]
  | true =>
    rw [Host.read_marked behind]
    cases host.read path <;> simp [Except.map]

theorem refers_marked : Refers (host.marked marked) = RefersPlainly host marked := by
  funext source reference
  unfold RefersPlainly Refers
  cases behind : marked source with
  | false => simp [Host.read_unmarked behind]
  | true =>
    rw [Host.read_marked behind]
    cases host.read source <;> simp [Except.map, Reference.paths_mark]

theorem reached_marked (roots : List Path) (path : Path) :
    Reached (host.marked marked) roots path ↔
      ∃ root ∈ roots, ReflTransGen (RefersPlainly host marked) root.normalize path := by
  rw [Reached, refers_marked]

theorem reached_of_marked {roots : List Path} {path : Path}
    (way : Reached (host.marked marked) roots path) : Reached host roots path := by
  obtain ⟨root, listed, way⟩ := (reached_marked roots path).mp way
  exact ⟨root, listed, ReflTransGen.mono (fun _ _ refers => refers.2) _ _ way⟩

theorem IsClosure.paths_nodup {roots : List Path} {p : Program} (c : IsClosure host roots p) :
    (p.files.map Tree.path).Nodup := by
  have names : (p.files.map Tree.path).map Path.render = p.files.map (·.fileName) := by
    rw [List.map_map]
    exact List.map_congr_left fun file mem => (c.named file mem).symm
  exact List.Nodup.of_map _ (names ▸ c.names_nodup)

/-- Behind a mark a text has the references that it has without it exactly if it has none. A program
of which some files are saved behind a mark is loaded with the same files exactly if each of them
is reached from the roots over references of files without a mark. -/
theorem load_marked_iff {names : List String} {p q : Program}
    (done : (load host (names.map .ofText)).1 = .ok p)
    (done' : (load (host.marked marked) (names.map .ofText)).1 = .ok q) :
    (∀ text, Reference.paths (Reference.mark text) = Reference.paths text ↔
      Reference.paths text = []) ∧
    ((q.files.map Tree.path).Perm (p.files.map Tree.path) ∧ q.declarations.Perm p.declarations ↔
      ∀ path, path ∈ p.files.map Tree.path ∨ path ∈ p.declarations →
        ∃ root ∈ names.map Path.ofText,
          ReflTransGen (RefersPlainly host marked) root.normalize path) := by
  have closure := isClosure_of_load done
  have closure' := isClosure_of_load done'
  refine ⟨fun text => by rw [Reference.paths_mark, eq_comm], ?_⟩
  simp only [← reached_marked]
  rw [List.perm_ext_iff_of_nodup closure'.paths_nodup closure.paths_nodup,
    List.perm_ext_iff_of_nodup closure'.declarations_nodup closure.declarations_nodup]
  simp only [closure'.mem_paths_iff, closure'.mem_declarations_iff, closure.mem_paths_iff,
    closure.mem_declarations_iff, isSource_marked]
  constructor
  · rintro ⟨files, declarations⟩ path (source | declaration)
    · exact ((files path).mpr source).1
    · exact ((declarations path).mpr declaration).1
  · intro reached
    constructor
    · exact fun path => ⟨fun h => ⟨reached_of_marked h.1, h.2⟩, fun h => ⟨reached path (Or.inl h), h.2⟩⟩
    · exact fun path => ⟨fun h => ⟨reached_of_marked h.1, h.2⟩, fun h => ⟨reached path (Or.inr h), h.2⟩⟩

/-- A file that refers to another one. -/
def referring : Host :=
  .ofFiles [(.ofText "a.ts", "/// <reference path=\"b.ts\" />\nvar a;\n"), (.ofText "b.ts", "var b;\n")]

theorem exists_load_referring :
    ∃ p q, (load referring (["a.ts"].map .ofText)).1 = .ok p ∧
      (load (referring.marked (· = .ofText "a.ts")) (["a.ts"].map .ofText)).1 = .ok q ∧
      p.files.map (·.fileName) = ["b.ts", "a.ts"] ∧ q.files.map (·.fileName) = ["a.ts"] := by
  have plain : (load referring (["a.ts"].map .ofText)).1.toOption.any (fun p =>
      p.files.map (·.fileName) = ["b.ts", "a.ts"]) = true := by
    decide +kernel
  have behind : (load (referring.marked (· = .ofText "a.ts")) (["a.ts"].map .ofText)).1.toOption.any
      (fun q => q.files.map (·.fileName) = ["a.ts"]) = true := by
    decide +kernel
  obtain ⟨p, done, files⟩ := exists_ok_of_any plain
  obtain ⟨q, done', files'⟩ := exists_ok_of_any behind
  exact ⟨p, q, done, done', of_decide_eq_true files, of_decide_eq_true files'⟩

/-- A mark in front of a directive hides it, and the file that it names is missing. -/
theorem load_hidden :
    Reference.paths "/// <reference path=\"b.ts\" />\nvar a;\n".toList = ["b.ts"] ∧
      Reference.paths (Reference.mark "/// <reference path=\"b.ts\" />\nvar a;\n".toList) = [] ∧
      ∃ p q, (load referring (["a.ts"].map .ofText)).1 = .ok p ∧
        (load (referring.marked (· = .ofText "a.ts")) (["a.ts"].map .ofText)).1 = .ok q ∧
        p.files.map (·.fileName) = ["b.ts", "a.ts"] ∧ q.files.map (·.fileName) = ["a.ts"] :=
  ⟨by decide, by decide, exists_load_referring⟩

theorem load_marked_referring :
    ∃ p q, (load referring (["a.ts"].map .ofText)).1 = .ok p ∧
      (load (referring.marked (· = .ofText "a.ts")) (["a.ts"].map .ofText)).1 = .ok q ∧
      ¬ (q.files.map Tree.path).Perm (p.files.map Tree.path) ∧
      ∃ path, (path ∈ p.files.map Tree.path ∨ path ∈ p.declarations) ∧
        ¬ ∃ root ∈ ["a.ts"].map Path.ofText,
          ReflTransGen (RefersPlainly referring (· = .ofText "a.ts")) root.normalize path := by
  obtain ⟨p, q, done, done', files, files'⟩ := exists_load_referring
  have fewer : ¬ (q.files.map Tree.path).Perm (p.files.map Tree.path) := by
    intro perm
    have size := perm.length_eq
    simp only [List.length_map] at size
    have total := congrArg List.length files
    have total' := congrArg List.length files'
    simp only [List.length_map, List.length_cons, List.length_nil] at total total'
    omega
  -- The files differ, so by the equivalence some path is not reached over files without a mark.
  refine ⟨p, q, done, done', fewer, ?_⟩
  by_contra all
  refine fewer ((load_marked_iff done done').2.mpr fun path loaded => ?_).1
  by_contra unreached
  exact all ⟨path, loaded, unreached⟩

end Program

end Dartify
