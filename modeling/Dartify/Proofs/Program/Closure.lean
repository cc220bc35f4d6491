import Mathlib.Tactic.Tauto
import Dartify.Proofs.Files.Spelling
import Dartify.Proofs.Program.Search

/-! What a program consists of. Files go by their names, which spell their paths; since normal paths
are read from their spellings, no two files share a name. Main statement: a program that is loaded
is the closure of its roots under references, everything in it once, whatever the order of the
roots. -/
namespace Dartify

/-- The path that the name of a file spells. -/
def Tree.path (t : Tree) : Path := .ofText t.fileName

theorem Tree.fileName_ofText {name : String} {text : List Char} {tree : Tree}
    (read : Tree.ofText name text = .ok tree) : tree.fileName = name := by
  unfold Tree.ofText at read
  split at read
  · rename_i c accepted
    cases sketched : Abstraction.sourceFile text c with
    | error cause =>
      rw [sketched] at read
      cases read
    | ok s =>
      rw [sketched] at read
      cases read
      rfl
  · cases read

namespace Program

open Relation

/-- A root, or what references lead to from a root. -/
def Reached (host : Host) (roots : List Path) (path : Path) : Prop :=
  ∃ root ∈ roots, ReflTransGen (Refers host) root.normalize path

/-- All that is reached from some roots, once each. -/
structure IsClosure (host : Host) (roots : List Path) (p : Program) : Prop where
  names_nodup : (p.files.map (·.fileName)).Nodup
  mem_paths_iff : ∀ path, path ∈ p.files.map Tree.path ↔
    Reached host roots path ∧ IsSource host path
  named : ∀ file ∈ p.files, file.fileName = file.path.render
  parsed : ∀ file ∈ p.files, Parses host file.path file
  declarations_nodup : p.declarations.Nodup
  mem_declarations_iff : ∀ path, path ∈ p.declarations ↔
    Reached host roots path ∧ path.isDeclaration = true

variable {host : Host}

/-! ## Paths of files -/

theorem plain_target {path : Path} (plain : path.Plain) (reference : String) :
    (target path reference).Plain :=
  (plain.directory.spelled.join (Path.spelled_ofText reference)).normalize

theorem Reached.plain {names : List String} {path : Path}
    (reached : Reached host (names.map .ofText) path) : path.Plain := by
  obtain ⟨root, listed, way⟩ := reached
  obtain ⟨name, -, rfl⟩ := List.mem_map.mp listed
  induction way with
  | refl => exact (Path.spelled_ofText name).normalize
  | tail _ refers ih =>
    obtain ⟨-, text, -, reference, -, rfl⟩ := refers
    exact plain_target ih reference

theorem Parses.path_eq {path : Path} {tree : Tree} (parses : Parses host path tree)
    (plain : path.Plain) : tree.path = path := by
  obtain ⟨text, -, read⟩ := parses
  rw [Tree.path, Tree.fileName_ofText read, plain.ofText_render]

theorem map_path_eq {paths : List Path} {files : List Tree}
    (parses : List.Forall₂ (Parses host) paths files) (plain : ∀ q ∈ paths, q.Plain) :
    files.map Tree.path = paths := by
  induction parses with
  | nil => rfl
  | @cons q file paths files here _ ih =>
    rw [List.map_cons, here.path_eq (plain q List.mem_cons_self),
      ih fun q h => plain q (List.mem_cons_of_mem _ h)]

/-- The accounts of a program that is loaded, with nothing open any more. -/
theorem load_accounted {names : List String} {p : Program}
    (done : (load host (names.map .ofText)).1 = .ok p) :
    ∃ l, l.program = p ∧ Accounted host [] (p.files.map Tree.path) l ∧
      ∀ path, path ∈ l.seen ↔ Reached host (names.map .ofText) path := by
  obtain ⟨l, pass, rfl⟩ := (load_eq_ok_iff host _ p).mp done
  obtain ⟨paths, acc⟩ := rootPass_accounted pass
  have seen := mem_seen_iff pass
  have plain : ∀ q ∈ paths, q.Plain := fun q listed =>
    Reached.plain ((seen q).mp ((acc.mem_paths q).mp listed).1)
  refine ⟨l, rfl, ?_, seen⟩
  have same : l.program.files.map Tree.path = paths := map_path_eq acc.parses plain
  rwa [same]

/-! ## The closure -/

theorem isClosure_of_load {names : List String} {p : Program}
    (done : (load host (names.map .ofText)).1 = .ok p) :
    IsClosure host (names.map .ofText) p := by
  obtain ⟨l, rfl, acc, seen⟩ := load_accounted done
  have parsed : ∀ file ∈ l.program.files, Parses host file.path file := by
    have each := List.forall₂_map_left_iff.mp acc.parses
    intro file mem
    have same : List.Forall₂ (fun a b => Parses host a.path b) l.program.files l.program.files :=
      each
    exact List.forall₂_same.mp same file mem
  have declarations : l.program.declarations = (l.seen.filter (·.isDeclaration)).reverse :=
    acc.declarations
  refine ⟨?_, ?_, ?_, parsed, ?_, ?_⟩
  · have distinct : ((l.program.files.map (·.fileName)).map Path.ofText).Nodup := by
      rw [List.map_map]
      exact acc.paths_nodup
    exact List.Nodup.of_map _ distinct
  · intro path
    rw [acc.mem_paths, seen]
    simp
  · intro file mem
    obtain ⟨text, -, read⟩ := parsed file mem
    exact Tree.fileName_ofText read
  · rw [declarations, List.nodup_reverse]
    exact acc.seen_nodup.filter _
  · intro path
    rw [declarations, List.mem_reverse, List.mem_filter, seen]

theorem Parses.functional {path : Path} {tree tree' : Tree} (parses : Parses host path tree)
    (parses' : Parses host path tree') : tree = tree' := by
  obtain ⟨text, answer, read⟩ := parses
  obtain ⟨text', answer', read'⟩ := parses'
  have same : text = text' := Except.ok.inj (answer.symm.trans answer')
  subst same
  exact Except.ok.inj (read.symm.trans read')

namespace IsClosure

variable {roots roots' : List Path} {p p' : Program}

theorem mem_files_iff (c : IsClosure host roots p) (file : Tree) :
    file ∈ p.files ↔
      Reached host roots file.path ∧ IsSource host file.path ∧ Parses host file.path file := by
  constructor
  · intro mem
    have listed := (c.mem_paths_iff file.path).mp (List.mem_map_of_mem mem)
    exact ⟨listed.1, listed.2, c.parsed file mem⟩
  · rintro ⟨reached, source, parses⟩
    obtain ⟨other, mem, same⟩ := List.mem_map.mp ((c.mem_paths_iff _).mpr ⟨reached, source⟩)
    have parses' := c.parsed other mem
    rw [same] at parses'
    rw [parses.functional parses']
    exact mem

/-- Programs with the same roots differ in the order of their files at most. -/
theorem perm (c : IsClosure host roots p) (c' : IsClosure host roots' p')
    (same : ∀ root, root ∈ roots' ↔ root ∈ roots) :
    p'.files.Perm p.files ∧ p'.declarations.Perm p.declarations := by
  have reached : ∀ path, Reached host roots' path ↔ Reached host roots path := by
    intro path
    simp only [Reached, same]
  constructor
  · refine (List.perm_ext_iff_of_nodup (List.Nodup.of_map _ c'.names_nodup)
      (List.Nodup.of_map _ c.names_nodup)).mpr ?_
    intro file
    rw [c'.mem_files_iff, c.mem_files_iff, reached]
  · refine (List.perm_ext_iff_of_nodup c'.declarations_nodup c.declarations_nodup).mpr ?_
    intro path
    rw [c'.mem_declarations_iff, c.mem_declarations_iff, reached]

end IsClosure

/-- A program that is loaded is the closure of its roots. Repeating roots or changing their order
changes no more than the order of its files. -/
theorem load_isClosure {names : List String} {p : Program}
    (done : (load host (names.map .ofText)).1 = .ok p) :
    IsClosure host (names.map .ofText) p ∧
      ∀ (others : List String) (q : Program), (∀ name, name ∈ others ↔ name ∈ names) →
        (load host (others.map .ofText)).1 = .ok q →
          q.files.Perm p.files ∧ q.declarations.Perm p.declarations := by
  have closure := isClosure_of_load done
  refine ⟨closure, ?_⟩
  intro others q same done'
  apply closure.perm (isClosure_of_load done')
  intro root
  simp only [List.mem_map, same]

/-- Two files that refer to each other, to a declaration file and to a path that is missing. -/
def circular : Host :=
  .ofFiles [
    (.ofText "a.ts", "/// <reference path=\"b.ts\" />\n/// <reference path=\"lib.d.ts\" />\nvar a;\n"),
    (.ofText "b.ts", "/// <reference path=\"./a.ts\" />\n/// <reference path=\"gone.ts\" />\nvar b;\n")]

theorem isClosure_circular :
    ∃ p q, (load circular (["a.ts", "b.ts"].map .ofText)).1 = .ok p ∧
      (load circular (["b.ts", "a.ts", "b.ts"].map .ofText)).1 = .ok q ∧
      p.files.map (·.fileName) = ["b.ts", "a.ts"] ∧ q.files.map (·.fileName) = ["a.ts", "b.ts"] ∧
      p.declarations = [.ofText "lib.d.ts"] ∧
      IsClosure circular (["a.ts", "b.ts"].map .ofText) p ∧
      q.files.Perm p.files ∧ q.declarations.Perm p.declarations := by
  have same : ∀ name, name ∈ ["b.ts", "a.ts", "b.ts"] ↔ name ∈ ["a.ts", "b.ts"] := by
    intro name
    simp only [List.mem_cons, List.not_mem_nil]
    tauto
  have first : (load circular (["a.ts", "b.ts"].map .ofText)).1.toOption.any (fun p =>
      p.files.map (·.fileName) = ["b.ts", "a.ts"] ∧ p.declarations = [.ofText "lib.d.ts"]) =
        true := by
    decide +kernel
  have second : (load circular (["b.ts", "a.ts", "b.ts"].map .ofText)).1.toOption.any (fun q =>
      q.files.map (·.fileName) = ["a.ts", "b.ts"]) = true := by
    decide +kernel
  obtain ⟨p, done, facts⟩ := exists_ok_of_any first
  obtain ⟨q, done', names'⟩ := exists_ok_of_any second
  obtain ⟨names, declarations⟩ := of_decide_eq_true facts
  obtain ⟨closure, perm⟩ := load_isClosure done
  exact ⟨p, q, done, done', names, of_decide_eq_true names', declarations, closure,
    perm _ q same done'⟩

end Program

end Dartify
