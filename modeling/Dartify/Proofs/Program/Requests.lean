import Dartify.Proofs.Program.Nesting

/-! What loading asks its host for. A watched load does what loading does, and records each request
to read a file. A path is marked as met right before its file is read, so what has been read has
been met. Main statement: loading ends, within one level of nesting more than there are readable
paths, and reads no file twice. -/
namespace Dartify.Program

open Load

/-- Loading under watch, with the paths whose files it has read, the last first. -/
abbrev Watch := ExceptT LoadError (StateM (Loading × List Path))

namespace Watch

/-- A step of loading that reads nothing. -/
def quietly {α : Type} (step : Load α) : Watch α := fun (l, asked) =>
  ((outcome step l).1, (outcome step l).2, asked)

def read (host : Host) (path : Path) : Watch (Except FileFault String) := do
  modify fun (l, asked) => (l, path :: asked)
  return host.read path

def enter (visit : Path → Watch Unit) (path : Path) (text : String) : Watch Unit := do
  (Reference.paths text.toList).forM fun reference => do
    quietly (tell (.reference path reference))
    visit (target path reference)
  quietly (tell (.parsing path))
  match Tree.ofText path.render text.toList with
  | .ok file => quietly (add file)
  | .error cause => throw (.rejected path.render cause)

def visit (host : Host) : Nat → Bool → Path → Watch Unit
  | 0, _, _ => throw .nesting
  | depth + 1, isRoot, path => do
    if !(← quietly (meet path)) then return
    if path.isDeclaration then
      quietly do
        tell (.declarationFile path)
        declare path
    else
      match ← read host path with
      | .ok text => enter (visit host depth false) path text
      | .error cause =>
        if isRoot then throw (.unreadable path cause)
        else quietly (tell (.unreadableReference path cause))

end Watch

/-- What loading answers and tells under watch, and the files that it reads, when visits may nest
to a given depth. -/
def watchedLoad (host : Host) (depth : Nat) (roots : List Path) :
    (Except LoadError Program × List Log.Event) × List Path :=
  let (answer, l, asked) := outcome (do
    roots.forM fun root => Watch.visit host depth true root.normalize
    Watch.quietly announce) (Loading.start, [])
  ((answer.map fun _ => l.program, l.events.toList), asked)

/-! ## A watched step and the step itself -/

/-- All files that have been read belong to paths that have been met, and none was read twice. -/
structure Once (l : Loading) (asked : List Path) : Prop where
  nodup : asked.Nodup
  met : ∀ q ∈ asked, q ∈ l.seen

/-- A watched step comes to what the step comes to, and reads no file again. -/
def Mirrors {α : Type} (watched : Watch α) (step : Load α) : Prop :=
  ∀ l asked, Once l asked → ∃ asked', Once (outcome step l).2 asked' ∧
    outcome watched (l, asked) = ((outcome step l).1, (outcome step l).2, asked')

namespace Mirrors

variable {α β : Type}

theorem quietly (step : Load α) (kept : ∀ l, ∀ q ∈ l.seen, q ∈ (outcome step l).2.seen) :
    Mirrors (Watch.quietly step) step := by
  intro l asked once
  exact ⟨asked, ⟨once.nodup, fun q h => kept l q (once.met q h)⟩, rfl⟩

theorem throw (e : LoadError) : Mirrors (throw e : Watch α) (throw e : Load α) := by
  intro l asked once
  exact ⟨asked, once, rfl⟩

theorem bind {watched : Watch α} {step : Load α} {next : α → Watch β} {next' : α → Load β}
    (first : Mirrors watched step) (rest : ∀ a, Mirrors (next a) (next' a)) :
    Mirrors (watched >>= next) (step >>= next') := by
  intro l asked once
  obtain ⟨asked', once', same⟩ := first l asked once
  rw [outcome_bind, outcome_bind, same]
  generalize outcome step l = reached at once' ⊢
  obtain ⟨answer, l'⟩ := reached
  cases answer with
  | ok a => exact rest a l' asked' once'
  | error e => exact ⟨asked', once', rfl⟩

theorem forM {watched : α → Watch Unit} {step : α → Load Unit} {as : List α}
    (each : ∀ a, Mirrors (watched a) (step a)) : Mirrors (as.forM watched) (as.forM step) := by
  induction as with
  | nil =>
    intro l asked once
    exact ⟨asked, once, rfl⟩
  | cons a as ih => exact (each a).bind fun _ => ih

theorem tell (e : Log.Event) : Mirrors (Watch.quietly (Load.tell e)) (Load.tell e) :=
  quietly _ fun _ _ h => h

theorem enter {watched : Path → Watch Unit} {visit : Path → Load Unit}
    (each : ∀ path, Mirrors (watched path) (visit path)) (path : Path) (text : String) :
    Mirrors (Watch.enter watched path text) (Program.enter visit path text) := by
  unfold Watch.enter Program.enter
  refine bind (forM fun reference => bind (tell _) fun _ => each _) fun _ =>
    bind (tell _) fun _ => ?_
  cases Tree.ofText path.render text.toList with
  | ok file => exact quietly (add file) fun _ _ h => h
  | error cause => exact throw _

end Mirrors

/-! ## Visits under watch -/

section Visit

variable {host : Host} {path : Path} {l : Loading} {asked : List Path} (depth : Nat)
  (isRoot : Bool)

theorem watched_old (old : path ∈ l.seen) :
    outcome (Watch.visit host (depth + 1) isRoot path) (l, asked) = (.ok (), l, asked) := by
  have met : outcome (Watch.quietly (meet path)) (l, asked) = (.ok false, l, asked) := by
    have met : outcome (meet path) l = (.ok false, l) := by simp [outcome_meet, old]
    exact congrArg (fun r => (r.1, r.2, asked)) met
  rw [Watch.visit, outcome_bind_ok met]
  rfl

theorem watched_read {α : Type} (next : Except FileFault String → Watch α) :
    outcome (Watch.read host path >>= next) (l, asked) =
      outcome (next (host.read path)) (l, path :: asked) := outcome_bind_ok rfl next

theorem watched_new (new : path ∉ l.seen) :
    outcome (Watch.visit host (depth + 1) isRoot path) (l, asked) =
      outcome (if path.isDeclaration then Watch.quietly do
          tell (.declarationFile path)
          declare path
        else do
          match ← Watch.read host path with
          | .ok text => Watch.enter (Watch.visit host depth false) path text
          | .error cause =>
            if isRoot then throw (LoadError.unreadable path cause)
            else Watch.quietly (tell (.unreadableReference path cause))) (l.marked path, asked) := by
  have met : outcome (Watch.quietly (meet path)) (l, asked) = (.ok true, l.marked path, asked) := by
    have met : outcome (meet path) l = (.ok true, l.marked path) := by
      simp [outcome_meet, new, Loading.marked]
    exact congrArg (fun r => (r.1, r.2, asked)) met
  rw [Watch.visit, outcome_bind_ok met]
  rfl

end Visit

theorem visit_mirrors {host : Host} (depth : Nat) (isRoot : Bool) (path : Path) :
    Mirrors (Watch.visit host depth isRoot path) (visit host depth isRoot path) := by
  induction depth generalizing isRoot path with
  | zero => exact .throw _
  | succ depth ih =>
    intro l asked once
    by_cases met : path ∈ l.seen
    · rw [visit_old depth isRoot met, watched_old depth isRoot met]
      exact ⟨asked, once, rfl⟩
    have marked : Once (l.marked path) asked :=
      ⟨once.nodup, fun q h => List.mem_cons_of_mem path (once.met q h)⟩
    have read : Once (l.marked path) (path :: asked) := by
      refine ⟨List.nodup_cons.mpr ⟨fun h => met (once.met path h), once.nodup⟩, ?_⟩
      simpa using marked.met
    rw [visit_new depth isRoot met, watched_new depth isRoot met]
    cases path.isDeclaration with
    | true =>
      exact Mirrors.quietly (tell (.declarationFile path) >>= fun _ => declare path)
        (fun _ _ h => h) _ _ marked
    | false =>
      simp only [Bool.false_eq_true, if_false, watched_read]
      cases host.read path with
      | ok text => exact Mirrors.enter (ih false) path text _ _ read
      | error cause =>
        cases isRoot with
        | true => exact Mirrors.throw _ _ _ read
        | false => exact Mirrors.tell _ _ _ read

theorem load_eq (host : Host) (roots : List Path) :
    load host roots =
      ((outcome (rootPass host roots >>= fun _ => announce) .start).1.map fun _ =>
          (outcome (rootPass host roots >>= fun _ => announce) .start).2.program,
        (outcome (rootPass host roots >>= fun _ => announce) .start).2.events.toList) := rfl

/-- Loading ends for every graph of references, and the visits of a root nest at most one level
deeper than there are readable paths: any number of levels beyond that comes to the same. No file is
read twice. -/
theorem load_reads_once {host : Host} {readable : Finset Path}
    (all : ∀ path text, host.read path = .ok text → path ∈ readable) {depth : Nat}
    (enough : readable.card < depth) (roots : List Path) :
    (watchedLoad host depth roots).1 = load host roots ∧
      (load host roots).1 ≠ .error .nesting ∧ (watchedLoad host depth roots).2.Nodup := by
  have mirrors : Mirrors (do
        roots.forM fun root => Watch.visit host depth true root.normalize
        Watch.quietly announce) (rootPassWithin host depth roots >>= fun _ => announce) :=
    .bind (.forM fun root => visit_mirrors depth true root.normalize) fun _ =>
      .quietly announce fun _ _ h => h
  obtain ⟨asked, once, same⟩ := mirrors .start [] ⟨List.nodup_nil, nofun⟩
  obtain ⟨given, ends⟩ := rootPassWithin_eq all enough roots .start
  have given : outcome (rootPassWithin host depth roots >>= fun _ => announce) .start =
      outcome (rootPass host roots >>= fun _ => announce) .start := by
    rw [outcome_bind, outcome_bind, given]
  refine ⟨?_, ?_, ?_⟩
  · simp only [watchedLoad, same, given, load_eq]
  · rw [load_eq, outcome_bind]
    generalize outcome (rootPass host roots) .start = reached at ends ⊢
    obtain ⟨answer, l⟩ := reached
    cases answer with
    | ok done => exact nofun
    | error e => simpa [Except.map] using ends
  · simp only [watchedLoad, same]
    exact once.nodup

/-- Two files that refer to each other; one also refers to itself and to a path that is missing. -/
def looping : Host :=
  .ofFiles [
    (.ofText "a.ts", "/// <reference path=\"b.ts\" />\n/// <reference path=\"a.ts\" />\nvar a;\n"),
    (.ofText "b.ts", "/// <reference path=\"a.ts\" />\n/// <reference path=\"gone.ts\" />\n")]

theorem reads_looping :
    (∀ path text, looping.read path = .ok text → path ∈ looping.readable.toFinset) ∧
      looping.readable.toFinset.card < 3 ∧
      (watchedLoad looping 3 [.ofText "a.ts", .ofText "./b.ts"]).1 =
        load looping [.ofText "a.ts", .ofText "./b.ts"] ∧
      (load looping [.ofText "a.ts", .ofText "./b.ts"]).1 ≠ .error .nesting ∧
      (watchedLoad looping 3 [.ofText "a.ts", .ofText "./b.ts"]).2 =
        [.ofText "gone.ts", .ofText "b.ts", .ofText "a.ts"] ∧
      (watchedLoad looping 3 [.ofText "a.ts", .ofText "./b.ts"]).2.Nodup := by
  have all : ∀ path text, looping.read path = .ok text → path ∈ looping.readable.toFinset :=
    fun path text answer => List.mem_toFinset.mpr (looping.mem_readable path text answer)
  have enough : looping.readable.toFinset.card < 3 :=
    Nat.lt_succ_of_le looping.readable.toFinset_card_le
  have asked : (watchedLoad looping 3 [.ofText "a.ts", .ofText "./b.ts"]).2 =
      [.ofText "gone.ts", .ofText "b.ts", .ofText "a.ts"] := by
    decide +kernel
  obtain ⟨same, ends, once⟩ := load_reads_once all enough [.ofText "a.ts", .ofText "./b.ts"]
  exact ⟨all, enough, same, ends, asked, once⟩

end Dartify.Program
