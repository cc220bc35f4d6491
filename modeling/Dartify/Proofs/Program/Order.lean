import Dartify.Proofs.Program.Closure

/-! The order of a program. The visit of a file ends behind those of the files that it refers to,
unless one of them is still open; and a file that is open leads to all that is visited meanwhile.
Main statement: a file that another refers to comes first, unless it leads back to the other. -/
namespace Dartify.Program

open Relation

variable {host : Host}

theorem Ordered.mem_take_or_back {paths : List Path} (ordered : Ordered host paths) {i : Nat}
    {f g : Path} (at_i : paths[i]? = some f) (refers : Refers host f g)
    (source : IsSource host g) : g ∈ paths.take i ∨ ReflTransGen (Refers host) g f := by
  induction ordered with
  | nil => cases at_i
  | @snoc paths last ordered leads ih =>
    rcases Nat.lt_trichotomy i paths.length with inside | rfl | beyond
    · rw [List.getElem?_append_left inside] at at_i
      rw [List.take_append_of_le_length (Nat.le_of_lt inside)]
      exact ih at_i
    · have here : last = f := by simpa using at_i
      subst here
      rw [List.take_left]
      exact leads g refers source
    · have out : (paths ++ [last]).length ≤ i := by
        rw [List.length_append, List.length_singleton]
        omega
      rw [List.getElem?_eq_none out] at at_i
      cases at_i

/-- What a file refers to comes strictly before it, or leads back to it. -/
theorem Ordered.lt_or_back {paths : List Path} (ordered : Ordered host paths)
    (nodup : paths.Nodup) {i j : Nat} {f g : Path} (at_i : paths[i]? = some f)
    (at_j : paths[j]? = some g) (refers : Refers host f g) (source : IsSource host g) :
    j < i ∨ ReflTransGen (Refers host) g f := by
  rcases ordered.mem_take_or_back at_i refers source with front | back
  · obtain ⟨k, before, at_k⟩ := List.mem_take_iff_getElem.mp front
    have bound : k < paths.length := by omega
    have same : k = j := by
      apply (List.getElem?_inj bound nodup).mp
      rw [at_j, List.getElem?_eq_getElem bound, at_k]
    left
    omega
  · exact Or.inr back

/-- A file that another refers to comes first, unless it leads back to the other by references. So
if no file leads back to itself, every file comes behind all that it refers to. -/
theorem load_referenced_first {names : List String} {p : Program}
    (done : (load host (names.map .ofText)).1 = .ok p) :
    (∀ (i j : Nat) (f g : Tree), p.files[i]? = some f → p.files[j]? = some g →
      Refers host f.path g.path → ¬ ReflTransGen (Refers host) g.path f.path → j < i) ∧
    ((∀ path, ¬ TransGen (Refers host) path path) →
      ∀ (i j : Nat) (f g : Tree), p.files[i]? = some f → p.files[j]? = some g →
        Refers host f.path g.path → j < i) := by
  obtain ⟨l, -, acc, -⟩ := load_accounted done
  have order : ∀ (i j : Nat) (f g : Tree), p.files[i]? = some f → p.files[j]? = some g →
      Refers host f.path g.path → ¬ ReflTransGen (Refers host) g.path f.path → j < i := by
    intro i j f g at_i at_j refers apart
    have listed : g.path ∈ p.files.map Tree.path :=
      List.mem_map_of_mem (List.mem_of_getElem? at_j)
    have source : IsSource host g.path := ((acc.mem_paths _).mp listed).2.1
    have path_i : (p.files.map Tree.path)[i]? = some f.path := by rw [List.getElem?_map, at_i]; rfl
    have path_j : (p.files.map Tree.path)[j]? = some g.path := by rw [List.getElem?_map, at_j]; rfl
    exact (acc.ordered.lt_or_back acc.paths_nodup path_i path_j refers source).resolve_right apart
  refine ⟨order, ?_⟩
  intro acyclic i j f g at_i at_j refers
  exact order i j f g at_i at_j refers fun back => acyclic f.path (.head' refers back)

/-- A file that refers to another one. -/
def chained : Host :=
  .ofFiles [(.ofText "a.ts", "/// <reference path=\"b.ts\" />\nvar a;\n"),
    (.ofText "b.ts", "var b;\n")]

theorem refers_chained_iff (f g : Path) :
    Refers chained f g ↔ f = .ofText "a.ts" ∧ g = .ofText "b.ts" := by
  have named : Reference.paths "/// <reference path=\"b.ts\" />\nvar a;\n".toList = ["b.ts"] := by
    decide +kernel
  have led : target (.ofText "a.ts") "b.ts" = .ofText "b.ts" := by decide +kernel
  have plain : Reference.paths "var b;\n".toList = [] := by decide +kernel
  constructor
  · rintro ⟨-, text, answer, name, listed, rfl⟩
    have read : Host.lookUp f [(.ofText "a.ts", .ok "/// <reference path=\"b.ts\" />\nvar a;\n"),
        (.ofText "b.ts", .ok "var b;\n")] = .ok text := answer
    simp only [Host.lookUp] at read
    split at read
    · rename_i same
      cases read
      rw [named] at listed
      rw [← same, List.mem_singleton.mp listed, led]
      exact ⟨rfl, rfl⟩
    · split at read
      · cases read
        rw [plain] at listed
        cases listed
      · cases read
  · rintro ⟨rfl, rfl⟩
    have file : (Path.ofText "a.ts").isDeclaration = false := by decide +kernel
    exact ⟨file, _, rfl, "b.ts", by rw [named]; exact List.mem_singleton_self _, led⟩

theorem transGen_chained_iff (f g : Path) :
    TransGen (Refers chained) f g ↔ f = .ofText "a.ts" ∧ g = .ofText "b.ts" := by
  constructor
  · intro way
    induction way with
    | single refers => exact (refers_chained_iff f _).mp refers
    | tail _ refers ih =>
      have other : Path.ofText "b.ts" ≠ .ofText "a.ts" := by decide +kernel
      have same := ((refers_chained_iff _ _).mp refers).1
      rw [ih.2] at same
      exact absurd same other
  · rintro ⟨rfl, rfl⟩
    exact .single ((refers_chained_iff _ _).mpr ⟨rfl, rfl⟩)

theorem order_chained :
    ∃ p f g, (load chained (["a.ts"].map .ofText)).1 = .ok p ∧ p.files[1]? = some f ∧
      p.files[0]? = some g ∧ Refers chained f.path g.path ∧
      ¬ ReflTransGen (Refers chained) g.path f.path ∧ 0 < 1 ∧
      (∀ path, ¬ TransGen (Refers chained) path path) ∧
      ∀ (i j : Nat) (f g : Tree), p.files[i]? = some f → p.files[j]? = some g →
        Refers chained f.path g.path → j < i := by
  have other : Path.ofText "b.ts" ≠ .ofText "a.ts" := by decide +kernel
  have acyclic : ∀ path, ¬ TransGen (Refers chained) path path := by
    intro path way
    obtain ⟨first, second⟩ := (transGen_chained_iff path path).mp way
    exact other (second.symm.trans first)
  have facts : (load chained (["a.ts"].map .ofText)).1.toOption.any (fun p =>
      p.files.map (·.fileName) = ["b.ts", "a.ts"]) = true := by
    decide +kernel
  obtain ⟨p, done, names⟩ := exists_ok_of_any facts
  obtain ⟨g, rest, files, name_g, names⟩ := List.map_eq_cons_iff.mp (of_decide_eq_true names)
  obtain ⟨f, rest, rfl, name_f, -⟩ := List.map_eq_cons_iff.mp names
  have at_f : p.files[1]? = some f := by rw [files]; rfl
  have at_g : p.files[0]? = some g := by rw [files]; rfl
  have refers : Refers chained f.path g.path := by
    rw [refers_chained_iff, Tree.path, Tree.path, name_f, name_g]
    exact ⟨rfl, rfl⟩
  have apart : ¬ ReflTransGen (Refers chained) g.path f.path := fun back =>
    acyclic f.path (.head' refers back)
  obtain ⟨first, topological⟩ := load_referenced_first done
  exact ⟨p, f, g, done, at_f, at_g, refers, apart, first 1 0 f g at_f at_g refers apart, acyclic,
    topological acyclic⟩

end Dartify.Program
