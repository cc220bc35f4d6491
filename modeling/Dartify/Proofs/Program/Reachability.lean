import Mathlib.Logic.Relation
import Dartify.Proofs.Program.Visit

/-! What loading meets: exactly the paths that references lead to from the roots. Roots and
references share one record of what has been met, so whether an unreadable root is noticed depends
on what the roots before it lead to. Main statement: a root that cannot be read is passed over
exactly if an earlier root leads to it by references, and is fatal otherwise. -/
namespace Dartify.Program

open Load Relation

/-- A file that can be read refers to a path in its header. -/
def Refers (host : Host) (source reference : Path) : Prop :=
  source.isDeclaration = false ∧
    ∃ text, host.read source = .ok text ∧
      ∃ name ∈ Reference.paths text.toList, target source name = reference

/-- References lead from one of the roots to a path, in at least one step. -/
def LeadsTo (host : Host) (roots : List Path) (path : Path) : Prop :=
  ∃ root ∈ roots, TransGen (Refers host) root.normalize path

/-- Loading does not stop at a path: it is not read, or it can be read. -/
def Loadable (host : Host) (path : Path) : Prop :=
  path.isDeclaration = true ∨ ∃ text, host.read path = .ok text

variable {host : Host}

theorem Refers.iff_mem {source reference : Path} {text : String}
    (file : source.isDeclaration = false) (readable : host.read source = .ok text) :
    Refers host source reference ↔
      reference ∈ (Reference.paths text.toList).map (target source) := by
  constructor
  · rintro ⟨-, text', readable', name, listed, rfl⟩
    have same : text = text' := Except.ok.inj (readable.symm.trans readable')
    subst same
    exact List.mem_map_of_mem listed
  · intro listed
    obtain ⟨name, named, rfl⟩ := List.mem_map.mp listed
    exact ⟨file, text, readable, name, named, rfl⟩

theorem not_loadable_iff {path : Path} :
    ¬ Loadable host path ↔
      path.isDeclaration = false ∧ ∃ cause, host.read path = .error cause := by
  unfold Loadable
  cases path.isDeclaration <;> cases host.read path <;> simp

instance (path : Path) : Decidable (Loadable host path) :=
  match declaration : path.isDeclaration, answer : host.read path with
  | true, _ => isTrue (Or.inl declaration)
  | false, .ok text => isTrue (Or.inr ⟨text, answer⟩)
  | false, .error cause => isFalse (not_loadable_iff.mpr ⟨declaration, cause, answer⟩)

/-! ## What a visit adds -/

/-- How a record of met paths grows when the paths of a list are visited one after the other. -/
structure Grown (host : Host) (starts before after : List Path) : Prop where
  kept : ∀ q ∈ before, q ∈ after
  met : ∀ q ∈ starts, q ∈ after
  reached : ∀ q ∈ after, q ∈ before ∨ ∃ s ∈ starts, ReflTransGen (Refers host) s q
  closed : ∀ f ∈ after, f ∈ before ∨ ∀ g, Refers host f g → g ∈ after

namespace Grown

variable {starts before middle after : List Path} {path : Path}

theorem none (seen : List Path) : Grown host [] seen seen where
  kept _ h := h
  met _ h := by cases h
  reached _ h := Or.inl h
  closed _ h := Or.inl h

theorem cons (first : Grown host [path] before middle) (rest : Grown host starts middle after) :
    Grown host (path :: starts) before after where
  kept q h := rest.kept q (first.kept q h)
  met q h := by
    rcases List.mem_cons.mp h with rfl | h
    · exact rest.kept q (first.met q (List.mem_singleton_self q))
    · exact rest.met q h
  reached q h := by
    rcases rest.reached q h with h | ⟨s, hs, way⟩
    · rcases first.reached q h with h | ⟨s, hs, way⟩
      · exact Or.inl h
      · exact Or.inr ⟨s, List.mem_cons.mpr (Or.inl (List.mem_singleton.mp hs)), way⟩
    · exact Or.inr ⟨s, List.mem_cons_of_mem path hs, way⟩
  closed f h := by
    rcases rest.closed f h with h | leads
    · rcases first.closed f h with h | leads
      · exact Or.inl h
      · exact Or.inr fun g refers => rest.kept g (leads g refers)
    · exact Or.inr leads

theorem old (h : path ∈ before) : Grown host [path] before before where
  kept _ h := h
  met q hq := by rwa [List.mem_singleton.mp hq]
  reached _ h := Or.inl h
  closed _ h := Or.inl h

theorem new (refers : ∀ g, Refers host path g ↔ g ∈ starts)
    (rest : Grown host starts (path :: before) after) : Grown host [path] before after where
  kept q h := rest.kept q (List.mem_cons_of_mem path h)
  met q h := by
    rw [List.mem_singleton.mp h]
    exact rest.kept path List.mem_cons_self
  reached q h := by
    rcases rest.reached q h with h | ⟨s, hs, way⟩
    · rcases List.mem_cons.mp h with rfl | h
      · exact Or.inr ⟨q, List.mem_singleton_self q, ReflTransGen.refl⟩
      · exact Or.inl h
    · exact Or.inr ⟨path, List.mem_singleton_self path, ReflTransGen.head ((refers s).mpr hs) way⟩
  closed f h := by
    rcases rest.closed f h with h | leads
    · rcases List.mem_cons.mp h with rfl | h
      · exact Or.inr fun g hg => rest.met g ((refers g).mp hg)
      · exact Or.inl h
    · exact Or.inr leads

theorem leaf (refers : ∀ g, ¬ Refers host path g) : Grown host [path] before (path :: before) := by
  have nothing : ∀ g, Refers host path g ↔ g ∈ ([] : List Path) := by
    intro g
    simp [refers g]
  exact new nothing (none (path :: before))

end Grown

theorem forM_grown {α : Type} (step : α → Load Unit) (start : α → Path)
    (each : ∀ a l l', outcome (step a) l = (.ok (), l') → Grown host [start a] l.seen l'.seen)
    (as : List α) (l l' : Loading) (done : outcome (as.forM step) l = (.ok (), l')) :
    Grown host (as.map start) l.seen l'.seen := by
  induction as generalizing l with
  | nil =>
    cases done
    exact Grown.none _
  | cons a as ih =>
    rw [forM_cons] at done
    obtain ⟨⟨⟩, middle, first, rest⟩ := bind_ok done
    exact Grown.cons (each a l middle first) (ih middle rest)

theorem enter_grown (visit : Path → Load Unit)
    (each : ∀ path l l', outcome (visit path) l = (.ok (), l') → Grown host [path] l.seen l'.seen)
    (path : Path) (text : String) (l l' : Loading)
    (done : outcome (enter visit path text) l = (.ok (), l')) :
    Grown host ((Reference.paths text.toList).map (target path)) l.seen l'.seen := by
  unfold enter at done
  obtain ⟨⟨⟩, middle, references, rest⟩ := bind_ok done
  have grown : Grown host ((Reference.paths text.toList).map (target path)) l.seen middle.seen := by
    apply forM_grown _ _ _ _ _ _ references
    intro name l l' step
    rw [outcome_tell_bind] at step
    exact each (target path name) { l with events := l.events.push (.reference path name) } l' step
  have same : l'.seen = middle.seen := by
    rw [outcome_tell_bind] at rest
    split at rest
    · cases rest
      rfl
    · cases rest
  exact same ▸ grown

theorem visit_grown (depth : Nat) (isRoot : Bool) (path : Path) (l l' : Loading)
    (done : outcome (visit host depth isRoot path) l = (.ok (), l')) :
    Grown host [path] l.seen l'.seen := by
  induction depth generalizing isRoot path l l' with
  | zero => cases done
  | succ depth ih =>
    by_cases met : path ∈ l.seen
    · rw [visit_old depth isRoot met] at done
      cases done
      exact Grown.old met
    cases declaration : path.isDeclaration with
    | true =>
      rw [visit_declaration depth isRoot met declaration] at done
      cases done
      apply Grown.leaf
      rintro g ⟨file, -⟩
      rw [declaration] at file
      cases file
    | false =>
      cases answer : host.read path with
      | ok text =>
        rw [visit_file depth isRoot met declaration answer] at done
        apply Grown.new (fun g => Refers.iff_mem declaration answer)
        exact enter_grown _ (fun path l l' => ih false path l l') path text (l.marked path) l' done
      | error cause =>
        have nowhere : ∀ g, ¬ Refers host path g := by
          rintro g ⟨-, text, readable, -⟩
          rw [answer] at readable
          cases readable
        cases isRoot with
        | true =>
          rw [visit_unreadable_root depth met declaration answer] at done
          cases done
        | false =>
          rw [visit_unreadable_reference depth met declaration answer] at done
          cases done
          exact Grown.leaf nowhere

/-! ## What the roots add -/

theorem rootPass_append (host : Host) (before after : List Path) :
    rootPass host (before ++ after) = (rootPass host before >>= fun _ => rootPass host after) :=
  List.forM_append

theorem rootPass_cons (host : Host) (root : Path) (roots : List Path) :
    rootPass host (root :: roots) =
      (visit host (depthLimit host) true root.normalize >>= fun _ => rootPass host roots) := rfl

theorem rootPass_grown {roots : List Path} {l : Loading}
    (done : outcome (rootPass host roots) .start = (.ok (), l)) :
    Grown host (roots.map Path.normalize) [] l.seen :=
  forM_grown _ _ (fun root l l' => visit_grown _ true root.normalize l l') roots .start l done

/-- Loading meets exactly what references lead to from the roots. -/
theorem mem_seen_iff {roots : List Path} {l : Loading}
    (done : outcome (rootPass host roots) .start = (.ok (), l)) (path : Path) :
    path ∈ l.seen ↔ ∃ root ∈ roots, ReflTransGen (Refers host) root.normalize path := by
  have grown := rootPass_grown done
  -- Nothing was met before the roots, so what is met is closed under references.
  constructor
  · intro h
    rcases grown.reached path h with h | ⟨s, hs, way⟩
    · cases h
    · obtain ⟨root, hroot, rfl⟩ := List.mem_map.mp hs
      exact ⟨root, hroot, way⟩
  · rintro ⟨root, hroot, way⟩
    induction way with
    | refl => exact grown.met _ (List.mem_map_of_mem hroot)
    | tail _ refers ih =>
      rcases grown.closed _ ih with h | leads
      · cases h
      · exact leads _ refers

theorem visit_root_loadable {depth : Nat} {path : Path} {l l' : Loading}
    (done : outcome (visit host depth true path) l = (.ok (), l')) (new : path ∉ l.seen) :
    Loadable host path := by
  by_cases loadable : Loadable host path
  · exact loadable
  obtain ⟨file, cause, fault⟩ := not_loadable_iff.mp loadable
  cases depth with
  | zero => cases done
  | succ depth =>
    rw [visit_unreadable_root depth new file fault] at done
    cases done

/-- Every path met is loadable, or was met by reference. -/
theorem seen_loadable {roots : List Path} {l l' : Loading}
    (done : outcome (rootPass host roots) l = (.ok (), l')) (path : Path) (met : path ∈ l'.seen) :
    path ∈ l.seen ∨ Loadable host path ∨ LeadsTo host roots path := by
  induction roots generalizing l with
  | nil =>
    cases done
    exact Or.inl met
  | cons root roots ih =>
    rw [rootPass_cons] at done
    obtain ⟨⟨⟩, middle, first, rest⟩ := bind_ok done
    rcases ih rest with h | h | ⟨s, hs, way⟩
    · rcases (visit_grown _ true _ _ _ first).reached path h with h | ⟨s, hs, way⟩
      · exact Or.inl h
      · have same : s = root.normalize := List.mem_singleton.mp hs
        subst same
        -- Without a step the path is the root itself, and a new root must be loadable.
        rcases reflTransGen_iff_eq_or_transGen.mp way with rfl | way
        · by_cases new : root.normalize ∈ l.seen
          · exact Or.inl new
          · exact Or.inr (Or.inl (visit_root_loadable first new))
        · exact Or.inr (Or.inr ⟨root, List.mem_cons_self, way⟩)
    · exact Or.inr (Or.inl h)
    · exact Or.inr (Or.inr ⟨s, List.mem_cons_of_mem root hs, way⟩)

/-- A root of a program that is loaded is loadable, unless the roots before it lead to it. -/
theorem root_loadable {before after : List Path} {root : Path} {p : Program}
    (done : (load host (before ++ root :: after)).1 = .ok p) :
    Loadable host root.normalize ∨ LeadsTo host before root.normalize := by
  obtain ⟨l, pass, -⟩ := (load_eq_ok_iff host _ p).mp done
  rw [rootPass_append, rootPass_cons] at pass
  obtain ⟨⟨⟩, middle, first, rest⟩ := bind_ok pass
  obtain ⟨⟨⟩, next, visited, -⟩ := bind_ok rest
  by_cases met : root.normalize ∈ middle.seen
  · exact (seen_loadable first _ met).resolve_left List.not_mem_nil
  · exact .inl (visit_root_loadable visited met)

/-- A root that cannot be read does no harm exactly if the roots before it lead to it by
references; the program is then the one without that root. -/
theorem load_unreadable_root_iff (before after : List Path) (root : Path) (p : Program)
    (unreadable : ¬ Loadable host root.normalize) :
    (load host (before ++ root :: after)).1 = .ok p ↔
      LeadsTo host before root.normalize ∧ (load host (before ++ after)).1 = .ok p := by
  obtain ⟨file, cause, fault⟩ := not_loadable_iff.mp unreadable
  rw [load_eq_ok_iff, load_eq_ok_iff, rootPass_append, rootPass_append, rootPass_cons]
  obtain ⟨answer, l, pass⟩ : ∃ answer l, outcome (rootPass host before) .start = (answer, l) :=
    ⟨_, _, rfl⟩
  cases answer with
  | error e => simp [outcome_bind_error pass]
  | ok done =>
    simp only [outcome_bind_ok pass]
    by_cases met : root.normalize ∈ l.seen
    · have led : LeadsTo host before root.normalize := by
        rcases seen_loadable pass _ met with h | h | h
        · cases h
        · exact absurd h unreadable
        · exact h
      have passed : outcome (visit host (depthLimit host) true root.normalize) l = (.ok (), l) :=
        visit_old _ true met
      simp [outcome_bind_ok passed, led]
    · have apart : ¬ LeadsTo host before root.normalize := by
        rintro ⟨r, hr, way⟩
        exact met ((mem_seen_iff pass _).mpr ⟨r, hr, way.to_reflTransGen⟩)
      have failed : outcome (visit host (depthLimit host) true root.normalize) l =
          (.error (.unreadable root.normalize cause), l.marked root.normalize) :=
        visit_unreadable_root _ met file fault
      simp [outcome_bind_error failed, apart]

/-- A host with one file, which refers to a path that cannot be read. -/
def dangling : Host :=
  .ofFiles [(.ofText "main.ts", "/// <reference path=\"gone.ts\" />\nvar a;\n")]

/-- The file is loaded before the path that it refers to, which is passed over as a root. -/
theorem load_dangling :
    (load dangling [.ofText "main.ts", .ofText "gone.ts"]).1.isOk = true ∧
      ¬ Loadable dangling (Path.ofText "gone.ts").normalize := by
  decide +kernel

theorem leadsTo_dangling :
    ¬ Loadable dangling (Path.ofText "gone.ts").normalize ∧
      LeadsTo dangling [.ofText "main.ts"] (Path.ofText "gone.ts").normalize := by
  have unreadable : ¬ Loadable dangling (Path.ofText "gone.ts").normalize := by decide +kernel
  have loaded : (load dangling ([.ofText "main.ts"] ++ .ofText "gone.ts" :: [])).1.toOption.any
      (fun _ => true) = true := by
    decide +kernel
  obtain ⟨p, ok, -⟩ := exists_ok_of_any loaded
  exact ⟨unreadable, ((load_unreadable_root_iff _ _ _ p unreadable).mp ok).1⟩

end Dartify.Program
