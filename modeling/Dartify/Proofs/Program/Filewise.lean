import Dartify.Program.Translation
import Dartify.Proofs.Program.Closure

/-! A program file by file. Every file is written by a run of its own, so what a file becomes is
settled by its name and its text. Main statement: the Dart of a program is that of its files on
their own, one behind the other, and the first of them that fails is what the program fails with. -/
namespace Dartify

open Dart

/-- The Dart of a tree, or why there is none. -/
def dartOf (file : Tree) : Except Failure String :=
  ((emit file).map render).mapError .write

theorem translateText_of_read {name text : String} {file : Tree}
    (read : Tree.ofText name text.toList = .ok file) : translateText name text = dartOf file := by
  unfold translateText dartOf
  simp only [read]
  cases emit file <;> rfl

namespace Program

variable {host : Host}

/-! ## One answer behind the other -/

/-- The texts of a list one behind the other, or its first failure. -/
def inTurn : List (Except Failure String) → Except Failure String
  | [] => .ok ""
  | .error failure :: _ => .error failure
  | .ok out :: answers => (inTurn answers).map (out ++ ·)

theorem inTurn_ok (outs : List String) : inTurn (outs.map .ok) = .ok (String.join outs) := by
  induction outs with
  | nil => rfl
  | cons out outs ih => simp [inTurn, ih, Except.map, String.join_cons]

theorem inTurn_eq_ok {answers : List (Except Failure String)} {text : String}
    (all : inTurn answers = .ok text) :
    ∃ outs, answers = outs.map .ok ∧ text = String.join outs := by
  induction answers generalizing text with
  | nil => exact ⟨[], rfl, (Except.ok.inj all).symm⟩
  | cons answer answers ih =>
    cases answer with
    | error failure => cases all
    | ok out =>
      cases later : inTurn answers with
      | error failure => simp [inTurn, later, Except.map] at all
      | ok rest =>
        obtain ⟨outs, rfl, rfl⟩ := ih later
        refine ⟨out :: outs, rfl, ?_⟩
        simpa [inTurn, later, Except.map, String.join_cons] using all.symm

theorem inTurn_first {answers : List (Except Failure String)} {i : Nat} {failure : Failure}
    (fails : answers[i]? = some (.error failure))
    (before : ∀ j < i, ∃ out, answers[j]? = some (.ok out)) : inTurn answers = .error failure := by
  induction answers generalizing i with
  | nil => simp at fails
  | cons answer answers ih =>
    cases i with
    | zero =>
      have here : answer = .error failure := by simpa using fails
      simp [here, inTurn]
    | succ i =>
      obtain ⟨out, here⟩ := before 0 (by omega)
      have here : answer = .ok out := by simpa using here
      have later : inTurn answers = .error failure := by
        apply ih (by simpa using fails)
        intro j inside
        simpa using before (j + 1) (by omega)
      simp [here, inTurn, later, Except.map]

theorem writeFiles_inTurn (files : List Tree) :
    (writeFiles files).1.mapError Failure.write = inTurn (files.map dartOf) := by
  induction files with
  | nil => rfl
  | cons file files ih =>
    cases emitted : emit file with
    | error stop => simp [writeFiles, dartOf, inTurn, emitted, Except.map, Except.mapError]
    | ok pieces =>
      simp only [writeFiles, dartOf, inTurn, emitted, List.map_cons, ← ih, Except.map,
        Except.mapError]
      cases (writeFiles files).1 <;> rfl

theorem translate_of_load {roots : List Path} {p : Program} (done : (load host roots).1 = .ok p) :
    (translate host roots).1 = inTurn (p.files.map dartOf) := by
  unfold translate
  split
  · rename_i cause events failed
    simp [failed] at done
  · rename_i q events loaded
    have same : q = p := by simpa [loaded] using done
    rw [← writeFiles_inTurn, same]
    rfl

theorem translate_of_load_error {roots : List Path} {cause : LoadError}
    (failed : (load host roots).1 = .error cause) :
    (translate host roots).1 = .error (.load cause) := by
  unfold translate
  split
  · rename_i other events loaded
    have same : other = cause := by simpa [loaded] using failed
    rw [same]
  · rename_i p events loaded
    simp [loaded] at failed

/-- All files that names lead to are loaded, and a text is their Dart in order. -/
def Yields (host : Host) (names : List String) (text : String) : Prop :=
  ∃ p outs, (load host (names.map .ofText)).1 = .ok p ∧ p.files.map dartOf = outs.map .ok ∧
    text = String.join outs

theorem translate_eq_ok_iff {names : List String} {text : String} :
    (translate host (names.map .ofText)).1 = .ok text ↔ Yields host names text := by
  constructor
  · intro done
    cases loaded : (load host (names.map .ofText)).1 with
    | error cause => simp [translate_of_load_error loaded] at done
    | ok p =>
      rw [translate_of_load loaded] at done
      obtain ⟨outs, each, joined⟩ := inTurn_eq_ok done
      exact ⟨p, outs, loaded, each, joined⟩
  · rintro ⟨p, outs, loaded, each, rfl⟩
    rw [translate_of_load loaded, each]
    exact inTurn_ok outs

/-! ## Texts of files -/

/-- What each of some files is translated to on its own. -/
def singly (files : List Tree) (texts : List String) : List (Except Failure String) :=
  List.zipWith translateText (files.map (·.fileName)) texts

/-- A text is the one that a host has for the file of a tree. -/
def Reads (host : Host) (file : Tree) (text : String) : Prop :=
  host.read file.path = .ok text ∧ Tree.ofText file.fileName text.toList = .ok file

theorem exists_reads {names : List String} {p : Program}
    (done : (load host (names.map .ofText)).1 = .ok p) {file : Tree} (mem : file ∈ p.files) :
    ∃ text, Reads host file text := by
  have closure := isClosure_of_load done
  obtain ⟨text, answer, read⟩ := closure.parsed file mem
  rw [← closure.named file mem] at read
  exact ⟨text, answer, read⟩

theorem exists_texts {files : List Tree} (each : ∀ file ∈ files, ∃ text, Reads host file text) :
    ∃ texts, List.Forall₂ (Reads host) files texts := by
  induction files with
  | nil => exact ⟨[], .nil⟩
  | cons file files ih =>
    obtain ⟨text, here⟩ := each file (by simp)
    obtain ⟨texts, rest⟩ := ih fun f mem => each f (by simp [mem])
    exact ⟨text :: texts, .cons here rest⟩

theorem singly_eq {files : List Tree} {texts : List String}
    (reads : List.Forall₂ (Reads host) files texts) : singly files texts = files.map dartOf := by
  induction reads with
  | nil => rfl
  | cons here _ ih =>
    simp only [singly, List.zipWith_cons_cons, List.map_cons] at ih ⊢
    rw [translateText_of_read here.2, ih]

/-- A program that is loaded is translated file by file: to the Dart of its files on their own, in
order, or to what the first file that fails on its own fails with. A file of the same name and text
has the same tree in every program, whatever the hosts, the roots and the other files. -/
theorem translate_filewise {names : List String} {p : Program}
    (done : (load host (names.map .ofText)).1 = .ok p) :
    ∃ texts, List.Forall₂ (fun file text => host.read file.path = .ok text) p.files texts ∧
      (∀ outs, singly p.files texts = outs.map .ok →
        (translate host (names.map .ofText)).1 = .ok (String.join outs)) ∧
      (∀ (i : Nat) (failure : Failure), (singly p.files texts)[i]? = some (.error failure) →
        (∀ j < i, ∃ out, (singly p.files texts)[j]? = some (.ok out)) →
          (translate host (names.map .ofText)).1 = .error failure) ∧
      ∀ (other : Host) (others : List String) (q : Program),
        (load other (others.map .ofText)).1 = .ok q →
          ∀ f ∈ p.files, ∀ g ∈ q.files, g.fileName = f.fileName →
            other.read g.path = host.read f.path → g = f := by
  obtain ⟨texts, reads⟩ := exists_texts fun _ mem => exists_reads done mem
  have each : (translate host (names.map .ofText)).1 = inTurn (singly p.files texts) := by
    rw [translate_of_load done, singly_eq reads]
  refine ⟨texts, reads.imp fun _ _ h => h.1, ?_, ?_, ?_⟩
  · intro outs all
    rw [each, all]
    exact inTurn_ok outs
  · intro i failure fails before
    rw [each]
    exact inTurn_first fails before
  · intro other others q done' f mem g mem' name same
    obtain ⟨text, answer, read⟩ := exists_reads done mem
    obtain ⟨text', answer', read'⟩ := exists_reads done' mem'
    have texts : text' = text := by simpa [answer, answer'] using same
    rw [name, texts, read] at read'
    exact (Except.ok.inj read').symm

def faultyText : String := "/// <reference path=\"b.ts\" />\ntypeof a;\n"

/-- A file that cannot be written, and one that it refers to. -/
def faulty : Host := .ofFiles [(.ofText "a.ts", faultyText), (.ofText "b.ts", "var b;\n")]

theorem filewise_faulty :
    ∃ p texts failure, (load faulty (["a.ts"].map .ofText)).1 = .ok p ∧
      List.Forall₂ (fun file text => faulty.read file.path = .ok text) p.files texts ∧
      (singly p.files texts)[1]? = some (.error failure) ∧
      (∀ j < 1, ∃ out, (singly p.files texts)[j]? = some (.ok out)) ∧
      (translate faulty (["a.ts"].map .ofText)).1 = .error failure := by
  have loaded : (load faulty (["a.ts"].map .ofText)).1.toOption.any (fun p =>
      p.files.map (·.fileName) = ["b.ts", "a.ts"]) = true := by
    decide +kernel
  have written : (translateText "b.ts" "var b;\n").toOption = some " var b ;\n" := by decide +kernel
  have stopped : (translateText "a.ts" faultyText).toOption = none := by decide +kernel
  obtain ⟨p, done, names⟩ := exists_ok_of_any loaded
  have names : p.files.map (·.fileName) = ["b.ts", "a.ts"] := of_decide_eq_true names
  obtain ⟨texts, reads, -, first, -⟩ := translate_filewise done
  have read : (p.files.map (·.fileName)).map (fun name => faulty.read (.ofText name)) =
      texts.map .ok := by
    rw [← List.forall₂_eq_eq_eq, List.forall₂_map_right_iff, List.map_map,
      List.forall₂_map_left_iff]
    exact reads
  have texts_eq : texts = ["var b;\n", faultyText] := by
    rw [names] at read
    exact List.map_injective_iff.mpr (fun _ _ => Except.ok.inj) read.symm
  cases answer : translateText "a.ts" faultyText with
  | ok out => simp [answer, Except.toOption] at stopped
  | error failure =>
    have fails : (singly p.files texts)[1]? = some (.error failure) := by
      simp [singly, names, texts_eq, answer]
    have before : ∀ j < 1, ∃ out, (singly p.files texts)[j]? = some (.ok out) := by
      intro j inside
      obtain rfl : j = 0 := by omega
      exact ⟨" var b ;\n", by simp [singly, names, texts_eq, ok_of_toOption written]⟩
    exact ⟨p, texts, failure, done, reads, fails, before, first 1 failure fails before⟩

end Program

end Dartify
