import Dartify.Program.Load
import Dartify.Proofs.Outcome

/-! What the steps of loading do: each comes to an answer and to what has been met and loaded by
then. A visit has one equation for each kind of path that it can find. -/
namespace Dartify.Program

namespace Load

theorem outcome_tell (e : Log.Event) (l : Loading) :
    outcome (tell e) l = (.ok (), { l with events := l.events.push e }) := rfl

theorem outcome_tell_bind (e : Log.Event) (next : Unit → Load α) (l : Loading) :
    outcome (tell e >>= next) l = outcome (next ()) { l with events := l.events.push e } :=
  outcome_bind_ok (outcome_tell e l) next

theorem forM_cons (step : α → Load Unit) (a : α) (as : List α) :
    (a :: as).forM step = (step a >>= fun _ => as.forM step) := rfl

theorem outcome_meet (path : Path) (l : Loading) :
    outcome (meet path) l =
      if l.seen.contains path then (.ok false, l)
      else (.ok true, { l with seen := path :: l.seen }) := by
  have run : outcome (meet path) l =
      outcome (if l.seen.contains path then pure false
        else do modify fun l => { l with seen := path :: l.seen }; pure true : Load Bool) l := rfl
  rw [run]
  split
  · rfl
  · rfl

end Load

open Load

/-- What is left when a path was marked as met. -/
def Loading.marked (l : Loading) (path : Path) : Loading := { l with seen := path :: l.seen }

@[simp] theorem Loading.seen_marked (l : Loading) (path : Path) :
    (l.marked path).seen = path :: l.seen := rfl

section Visit

variable {host : Host} {path : Path} {l : Loading} (depth : Nat) (isRoot : Bool)

theorem visit_old (old : path ∈ l.seen) :
    outcome (visit host (depth + 1) isRoot path) l = (.ok (), l) := by
  have met : outcome (meet path) l = (.ok false, l) := by
    rw [outcome_meet, if_pos (List.contains_iff_mem.mpr old)]
  rw [visit, outcome_bind_ok met]
  rfl

theorem visit_new (new : path ∉ l.seen) :
    outcome (visit host (depth + 1) isRoot path) l =
      outcome (if path.isDeclaration then do
          tell (.declarationFile path)
          declare path
        else
          match host.read path with
          | .ok text => enter (visit host depth false) path text
          | .error cause =>
            if isRoot then throw (LoadError.unreadable path cause)
            else tell (.unreadableReference path cause)) (l.marked path) := by
  have met : outcome (meet path) l = (.ok true, l.marked path) := by
    rw [outcome_meet, if_neg (by simpa using new)]
    rfl
  rw [visit, outcome_bind_ok met]
  rfl

theorem visit_declaration (new : path ∉ l.seen) (declaration : path.isDeclaration = true) :
    outcome (visit host (depth + 1) isRoot path) l =
      (.ok (), { l.marked path with
        declarations := l.declarations.push path
        events := l.events.push (.declarationFile path) }) := by
  rw [visit_new depth isRoot new, if_pos declaration]
  rfl

theorem visit_file (new : path ∉ l.seen) (file : path.isDeclaration = false) {text : String}
    (readable : host.read path = .ok text) :
    outcome (visit host (depth + 1) isRoot path) l =
      outcome (enter (visit host depth false) path text) (l.marked path) := by
  rw [visit_new depth isRoot new, file, readable]
  rfl

theorem visit_unreadable_root (new : path ∉ l.seen) (file : path.isDeclaration = false)
    {cause : FileFault} (fault : host.read path = .error cause) :
    outcome (visit host (depth + 1) true path) l =
      (.error (.unreadable path cause), l.marked path) := by
  rw [visit_new depth true new, file, fault]
  rfl

theorem visit_unreadable_reference (new : path ∉ l.seen) (file : path.isDeclaration = false)
    {cause : FileFault} (fault : host.read path = .error cause) :
    outcome (visit host (depth + 1) false path) l =
      (.ok (), { l.marked path with
        events := l.events.push (.unreadableReference path cause) }) := by
  rw [visit_new depth false new, file, fault]
  rfl

end Visit

def rootPass (host : Host) (roots : List Path) : Load Unit :=
  roots.forM fun root => visit host (depthLimit host) true root.normalize

/-- The program that has been loaded so far. -/
def Loading.program (l : Loading) : Program := ⟨l.files.toList, l.declarations.toList⟩

def announce : Load Unit := do
  let l ← get
  tell (.loaded l.files.size l.declarations.size)

theorem outcome_announce (l : Loading) :
    outcome announce l =
      (.ok (), { l with events := l.events.push (.loaded l.files.size l.declarations.size) }) := rfl

theorem load_eq_ok_iff (host : Host) (roots : List Path) (p : Program) :
    (load host roots).1 = .ok p ↔
      ∃ l, outcome (rootPass host roots) .start = (.ok (), l) ∧ l.program = p := by
  have run : (load host roots).1 =
      (outcome (rootPass host roots >>= fun _ => announce) .start).1.map fun _ =>
        (outcome (rootPass host roots >>= fun _ => announce) .start).2.program := rfl
  rw [run, outcome_bind]
  obtain ⟨answer, l⟩ := outcome (rootPass host roots) .start
  cases answer with
  | error e => simp [Except.map]
  | ok done => simp [Except.map, outcome_announce, Loading.program]

end Dartify.Program
