import Mathlib.Data.List.Forall2
import Mathlib.Data.List.Nodup
import Dartify.Proofs.Program.Reachability

/-! Loading as a search. Its accounts hold at every point between two steps: a path that has been
met is a declaration file, cannot be read, is loaded, or is open, which means that its visit goes
on; and files stand in the order in which their visits end. A file that is met again while it is
open leads to the one that refers to it. Main statement: a visit keeps the accounts. -/
namespace Dartify.Program

open Load Relation

/-- A path whose text is loaded when the path is met. -/
def IsSource (host : Host) (path : Path) : Prop :=
  path.isDeclaration = false ∧ ∃ text, host.read path = .ok text

/-- A tree is that of the text that a host has for a path. -/
def Parses (host : Host) (path : Path) (tree : Tree) : Prop :=
  ∃ text, host.read path = .ok text ∧ Tree.ofText path.render text.toList = .ok tree

/-- What a file refers to stands in front of it, or leads back to it. -/
inductive Ordered (host : Host) : List Path → Prop
  | nil : Ordered host []
  | snoc {paths : List Path} {f : Path} (ordered : Ordered host paths)
      (leads : ∀ g, Refers host f g → IsSource host g →
        g ∈ paths ∨ ReflTransGen (Refers host) g f) : Ordered host (paths ++ [f])

/-- The accounts of loading while the visits of some paths are open. The files loaded so far are
those of `paths`. -/
structure Accounted (host : Host) (opened paths : List Path) (l : Loading) : Prop where
  seen_nodup : l.seen.Nodup
  opened_seen : ∀ q ∈ opened, q ∈ l.seen
  declarations : l.declarations.toList = (l.seen.filter (·.isDeclaration)).reverse
  parses : List.Forall₂ (Parses host) paths l.files.toList
  paths_nodup : paths.Nodup
  mem_paths : ∀ q, q ∈ paths ↔ q ∈ l.seen ∧ IsSource host q ∧ q ∉ opened
  ordered : Ordered host paths

variable {host : Host}

namespace Accounted

variable {opened paths : List Path} {path : Path} {l : Loading}

theorem start : Accounted host [] [] .start where
  seen_nodup := List.nodup_nil
  opened_seen _ h := by cases h
  declarations := rfl
  parses := .nil
  paths_nodup := List.nodup_nil
  mem_paths q := by simp [Loading.start]
  ordered := .nil

theorem told (acc : Accounted host opened paths l) (events : Array Log.Event) :
    Accounted host opened paths { l with events := events } :=
  { acc with }

/-- A new path that is not loaded, but declared if it is a declaration file. -/
theorem skipped (acc : Accounted host opened paths l) (new : path ∉ l.seen)
    (skipped : ¬ IsSource host path) :
    Accounted host opened paths
      { l.marked path with
        declarations :=
          if path.isDeclaration then l.declarations.push path else l.declarations } where
  seen_nodup := List.nodup_cons.mpr ⟨new, acc.seen_nodup⟩
  opened_seen q h := List.mem_cons_of_mem path (acc.opened_seen q h)
  declarations := by
    rw [Loading.seen_marked]
    split
    · rename_i declaration
      rw [List.filter_cons_of_pos declaration, List.reverse_cons, ← acc.declarations,
        Array.toList_push]
    · rename_i file
      rw [List.filter_cons_of_neg file]
      exact acc.declarations
  parses := acc.parses
  paths_nodup := acc.paths_nodup
  mem_paths q := by
    rw [acc.mem_paths, Loading.seen_marked, List.mem_cons]
    constructor
    · rintro ⟨met, source, closed⟩
      exact ⟨Or.inr met, source, closed⟩
    · rintro ⟨rfl | met, source, closed⟩
      · exact absurd source skipped
      · exact ⟨met, source, closed⟩
  ordered := acc.ordered

theorem entered (acc : Accounted host opened paths l) (new : path ∉ l.seen)
    (source : IsSource host path) : Accounted host (path :: opened) paths (l.marked path) where
  seen_nodup := List.nodup_cons.mpr ⟨new, acc.seen_nodup⟩
  opened_seen q h := by
    rcases List.mem_cons.mp h with rfl | h
    · exact List.mem_cons_self
    · exact List.mem_cons_of_mem path (acc.opened_seen q h)
  declarations := by
    rw [Loading.seen_marked, List.filter_cons_of_neg (by simp [source.1])]
    exact acc.declarations
  parses := acc.parses
  paths_nodup := acc.paths_nodup
  mem_paths q := by
    rw [acc.mem_paths, Loading.seen_marked, List.mem_cons, List.mem_cons, not_or]
    constructor
    · rintro ⟨met, source, closed⟩
      refine ⟨Or.inr met, source, ?_, closed⟩
      rintro rfl
      exact new met
    · rintro ⟨rfl | met, source, other, closed⟩
      · exact absurd rfl other
      · exact ⟨met, source, closed⟩
  ordered := acc.ordered

/-- The end of a visit. All that the file refers to has been met, and what is still open leads to
the file. -/
theorem finished (acc : Accounted host (path :: opened) paths l) (source : IsSource host path)
    (apart : path ∉ opened) {tree : Tree} (parses : Parses host path tree)
    (met : ∀ g, Refers host path g → g ∈ l.seen)
    (ways : ∀ q ∈ opened, ReflTransGen (Refers host) q path) :
    Accounted host opened (paths ++ [path]) { l with files := l.files.push tree } where
  seen_nodup := acc.seen_nodup
  opened_seen q h := acc.opened_seen q (List.mem_cons_of_mem path h)
  declarations := acc.declarations
  parses := by
    rw [Array.toList_push]
    exact List.rel_append acc.parses (.cons parses .nil)
  paths_nodup := by
    have fresh : path ∉ paths := fun h => ((acc.mem_paths path).mp h).2.2 List.mem_cons_self
    rw [← List.concat_eq_append]
    exact acc.paths_nodup.concat fresh
  mem_paths q := by
    rw [List.mem_append, acc.mem_paths, List.mem_singleton, List.mem_cons, not_or]
    constructor
    · rintro (⟨met, source, -, closed⟩ | rfl)
      · exact ⟨met, source, closed⟩
      · exact ⟨acc.opened_seen q List.mem_cons_self, source, apart⟩
    · rintro ⟨met, source, closed⟩
      by_cases same : q = path
      · exact Or.inr same
      · exact Or.inl ⟨met, source, same, closed⟩
  ordered := by
    refine .snoc acc.ordered ?_
    intro g refers source
    by_cases h : g ∈ path :: opened
    · rcases List.mem_cons.mp h with rfl | h
      · exact Or.inr ReflTransGen.refl
      · exact Or.inr (ways g h)
    · exact Or.inl ((acc.mem_paths g).mpr ⟨met g refers, source, h⟩)

end Accounted

/-! ## What a visit keeps -/

/-- A step that ends well keeps the accounts. -/
def Keeps (host : Host) (opened : List Path) (step : Load Unit) : Prop :=
  ∀ paths l l', Accounted host opened paths l → outcome step l = (.ok (), l') →
    ∃ paths', Accounted host opened paths' l'

theorem keeps_forM {α : Type} {opened : List Path} {step : α → Load Unit} {as : List α}
    (each : ∀ a ∈ as, Keeps host opened (step a)) : Keeps host opened (as.forM step) := by
  induction as with
  | nil =>
    intro paths l l' acc done
    cases done
    exact ⟨paths, acc⟩
  | cons a as ih =>
    intro paths l l' acc done
    rw [forM_cons] at done
    obtain ⟨⟨⟩, middle, first, rest⟩ := bind_ok done
    obtain ⟨paths', acc'⟩ := each a List.mem_cons_self paths l middle acc first
    exact ih (fun a h => each a (List.mem_cons_of_mem _ h)) paths' middle l' acc' rest

theorem enter_keeps {visit : Path → Load Unit} {path : Path} {opened : List Path} {text : String}
    (source : IsSource host path) (readable : host.read path = .ok text) (apart : path ∉ opened)
    (ways : ∀ q ∈ opened, ReflTransGen (Refers host) q path)
    (grows : ∀ q l l', outcome (visit q) l = (.ok (), l') → Grown host [q] l.seen l'.seen)
    (each : ∀ g, Refers host path g → Keeps host (path :: opened) (visit g))
    {paths : List Path} {l l' : Loading} (acc : Accounted host (path :: opened) paths l)
    (done : outcome (enter visit path text) l = (.ok (), l')) :
    ∃ paths', Accounted host opened paths' l' := by
  have grown := enter_grown visit grows path text l l' done
  unfold enter at done
  obtain ⟨⟨⟩, middle, references, rest⟩ := bind_ok done
  obtain ⟨paths', acc'⟩ : ∃ paths', Accounted host (path :: opened) paths' middle := by
    refine keeps_forM ?_ paths l middle acc references
    intro name listed paths l l' acc step
    rw [outcome_tell_bind] at step
    have refers : Refers host path (target path name) :=
      (Refers.iff_mem source.1 readable).mpr (List.mem_map_of_mem listed)
    exact each _ refers paths _ l' (acc.told _) step
  rw [outcome_tell_bind] at rest
  cases read : Tree.ofText path.render text.toList with
  | error cause =>
    rw [read] at rest
    cases rest
  | ok tree =>
    rw [read] at rest
    cases rest
    refine ⟨_, (acc'.told _).finished source apart ⟨text, readable, read⟩ ?_ ways⟩
    intro g refers
    exact grown.met g ((Refers.iff_mem source.1 readable).mp refers)

/-- A visit keeps the accounts, if what is open leads to where it goes. -/
theorem visit_keeps (depth : Nat) (isRoot : Bool) (path : Path) (opened : List Path)
    (ways : ∀ q ∈ opened, ReflTransGen (Refers host) q path) :
    Keeps host opened (visit host depth isRoot path) := by
  induction depth generalizing isRoot path opened with
  | zero =>
    intro paths l l' acc done
    cases done
  | succ depth ih =>
    intro paths l l' acc done
    by_cases met : path ∈ l.seen
    · rw [visit_old depth isRoot met] at done
      cases done
      exact ⟨paths, acc⟩
    cases declaration : path.isDeclaration with
    | true =>
      rw [visit_declaration depth isRoot met declaration] at done
      cases done
      have skipped : ¬ IsSource host path := by
        rintro ⟨file, -⟩
        rw [declaration] at file
        cases file
      have acc' := acc.skipped met skipped
      rw [if_pos declaration] at acc'
      exact ⟨paths, acc'.told _⟩
    | false =>
      cases answer : host.read path with
      | ok text =>
        have source : IsSource host path := ⟨declaration, text, answer⟩
        rw [visit_file depth isRoot met declaration answer] at done
        refine enter_keeps source answer (fun h => met (acc.opened_seen path h)) ways
          (visit_grown depth false) ?_ (acc.entered met source) done
        intro g refers
        apply ih false g (path :: opened)
        intro q h
        rcases List.mem_cons.mp h with rfl | h
        · exact ReflTransGen.single refers
        · exact (ways q h).tail refers
      | error cause =>
        have skipped : ¬ IsSource host path := by
          rintro ⟨-, text, readable⟩
          rw [answer] at readable
          cases readable
        cases isRoot with
        | true =>
          rw [visit_unreadable_root depth met declaration answer] at done
          cases done
        | false =>
          rw [visit_unreadable_reference depth met declaration answer] at done
          cases done
          have acc' := acc.skipped met skipped
          rw [if_neg (by simp [declaration])] at acc'
          exact ⟨paths, acc'.told _⟩

/-- The accounts when all roots have been visited. -/
theorem rootPass_accounted {roots : List Path} {l : Loading}
    (done : outcome (rootPass host roots) .start = (.ok (), l)) :
    ∃ paths, Accounted host [] paths l := by
  have keeps : Keeps host [] (rootPass host roots) :=
    keeps_forM fun root _ => visit_keeps _ true root.normalize [] nofun
  exact keeps [] .start l .start done

end Dartify.Program
