import Mathlib.Data.Finset.Card
import Dartify.Proofs.Program.Reachability

/-! How deep visits nest. A visit that goes on to others has read a file, and has met it before it
goes on; so one readable path fewer is unmet for each level of nesting, whatever the references.
Main statement: as many levels as there are readable paths, and one more, are as good as any
number of levels. -/
namespace Dartify.Program

open Load

variable {host : Host} {readable : Finset Path}

/-- The readable paths that have not been met. -/
def unmet (readable : Finset Path) (l : Loading) : Finset Path := readable \ l.seen.toFinset

theorem card_unmet_le (readable : Finset Path) (l : Loading) :
    (unmet readable l).card ≤ readable.card := Finset.card_le_card Finset.sdiff_subset

theorem card_unmet_mono {l l' : Loading} (kept : ∀ q ∈ l.seen, q ∈ l'.seen) :
    (unmet readable l').card ≤ (unmet readable l).card := by
  apply Finset.card_le_card
  intro q open'
  simp only [unmet, Finset.mem_sdiff, List.mem_toFinset] at open' ⊢
  exact ⟨open'.1, fun met => open'.2 (kept q met)⟩

theorem card_unmet_marked {l : Loading} {path : Path} (mem : path ∈ readable)
    (new : path ∉ l.seen) :
    (unmet readable (l.marked path)).card < (unmet readable l).card := by
  apply Finset.card_lt_card
  constructor
  · intro q
    simp [unmet]
    tauto
  · intro all
    have here : path ∈ unmet readable l := by simp [unmet, mem, new]
    simpa [unmet] using all here

/-! ## Steps that do not depend on the levels left -/

/-- Two steps come to the same, and do not nest too deep, while fewer than so many readable paths
are unmet. What has been met stays so. -/
structure Agree (readable : Finset Path) (room : Nat) (step step' : Load Unit) : Prop where
  same : ∀ l, (unmet readable l).card < room → outcome step' l = outcome step l
  ends : ∀ l, (unmet readable l).card < room → (outcome step l).1 ≠ .error .nesting
  kept : ∀ l l', outcome step l = (.ok (), l') → ∀ q ∈ l.seen, q ∈ l'.seen

namespace Agree

variable {room : Nat} {first first' rest rest' : Load Unit}

theorem bind (h : Agree readable room first first') (h' : Agree readable room rest rest') :
    Agree readable room (first >>= fun _ => rest) (first' >>= fun _ => rest') where
  same l few := by
    rw [outcome_bind, outcome_bind, h.same l few]
    split
    · rename_i done middle step
      exact h'.same middle (Nat.lt_of_le_of_lt (card_unmet_mono (h.kept l middle step)) few)
    · rfl
  ends l few := by
    rw [outcome_bind]
    split
    · rename_i done middle step
      exact h'.ends middle (Nat.lt_of_le_of_lt (card_unmet_mono (h.kept l middle step)) few)
    · rename_i e middle step
      have ends := h.ends l few
      rwa [step] at ends
  kept l l' done q met := by
    obtain ⟨⟨⟩, middle, step, later⟩ := bind_ok done
    exact h'.kept middle l' later q (h.kept l middle step q met)

theorem forM {α : Type} {step step' : α → Load Unit} {as : List α}
    (each : ∀ a, Agree readable room (step a) (step' a)) :
    Agree readable room (as.forM step) (as.forM step') := by
  induction as with
  | nil => exact ⟨fun l _ => rfl, fun l _ => nofun, fun l l' done q met => by cases done; exact met⟩
  | cons a as ih => exact (each a).bind ih

theorem tell (e : Log.Event) : Agree readable room (Load.tell e) (Load.tell e) where
  same l _ := rfl
  ends l _ := nofun
  kept l l' done q met := by cases done; exact met

theorem enter {visit visit' : Path → Load Unit}
    (each : ∀ path, Agree readable room (visit path) (visit' path)) (path : Path)
    (text : String) :
    Agree readable room (Program.enter visit path text) (Program.enter visit' path text) := by
  unfold Program.enter
  refine .bind (.forM fun reference => (tell _).bind (each _)) (.bind (tell _) ?_)
  split
  · exact ⟨fun l _ => rfl, fun l _ => nofun, fun l l' done q met => by cases done; exact met⟩
  · exact ⟨fun l _ => rfl, fun l _ => nofun, fun l l' done q met => by cases done⟩

end Agree

/-- More levels change nothing where there are more levels than unmet paths. -/
theorem visit_agree (all : ∀ path text, host.read path = .ok text → path ∈ readable)
    {depth more : Nat} (le : depth ≤ more) (isRoot : Bool) (path : Path) :
    Agree readable depth (visit host depth isRoot path) (visit host more isRoot path) := by
  induction depth generalizing more isRoot path with
  | zero => exact ⟨fun l few => by omega, fun l few => by omega, fun l l' done => by cases done⟩
  | succ depth ih =>
    obtain ⟨more, rfl⟩ : ∃ k, more = k + 1 := ⟨more - 1, by omega⟩
    -- A visit ends at once, or enters a file that it has just met.
    have cases_visit : ∀ l, (unmet readable l).card < depth + 1 →
        outcome (visit host (more + 1) isRoot path) l =
            outcome (visit host (depth + 1) isRoot path) l ∧
          (outcome (visit host (depth + 1) isRoot path) l).1 ≠ .error .nesting := by
      intro l few
      by_cases met : path ∈ l.seen
      · simp [visit_old _ isRoot met]
      cases declaration : path.isDeclaration with
      | true => simp [visit_declaration _ isRoot met declaration]
      | false =>
        cases answer : host.read path with
        | ok text =>
          have entered : Agree readable depth (enter (visit host depth false) path text)
              (enter (visit host more false) path text) :=
            .enter (fun p => ih (by omega) false p) path text
          have fewer := card_unmet_marked (all path text answer) met
          simp only [visit_file _ isRoot met declaration answer]
          exact ⟨entered.same _ (by omega), entered.ends _ (by omega)⟩
        | error cause =>
          cases isRoot with
          | true => simp [visit_unreadable_root _ met declaration answer]
          | false => simp [visit_unreadable_reference _ met declaration answer]
    exact ⟨fun l few => (cases_visit l few).1, fun l few => (cases_visit l few).2,
      fun l l' done => (visit_grown _ isRoot path l l' done).kept⟩

/-- The pass over the roots with a number of levels for each. -/
def rootPassWithin (host : Host) (depth : Nat) (roots : List Path) : Load Unit :=
  roots.forM fun root => visit host depth true root.normalize

theorem rootPassWithin_agree (all : ∀ path text, host.read path = .ok text → path ∈ readable)
    {depth more : Nat} (le : depth ≤ more) (roots : List Path) :
    Agree readable depth (rootPassWithin host depth roots) (rootPassWithin host more roots) :=
  .forM fun root => visit_agree all le true root.normalize

/-- With more levels than readable paths, the pass over the roots is the one of loading, and ends. -/
theorem rootPassWithin_eq (all : ∀ path text, host.read path = .ok text → path ∈ readable)
    {depth : Nat} (enough : readable.card < depth) (roots : List Path) (l : Loading) :
    outcome (rootPassWithin host depth roots) l = outcome (rootPass host roots) l ∧
      (outcome (rootPass host roots) l).1 ≠ .error .nesting := by
  have few := card_unmet_le readable l
  have listed : ∀ path text, host.read path = .ok text → path ∈ host.readable.toFinset :=
    fun path text answer => List.mem_toFinset.mpr (host.mem_readable path text answer)
  have limit : host.readable.toFinset.card < depthLimit host :=
    Nat.lt_succ_of_le host.readable.toFinset_card_le
  have few' := card_unmet_le host.readable.toFinset l
  have given : rootPass host roots = rootPassWithin host (depthLimit host) roots := rfl
  rw [given]
  rcases Nat.le_total depth (depthLimit host) with le | le
  · have agree := rootPassWithin_agree all le roots
    rw [agree.same l (by omega)]
    exact ⟨rfl, agree.ends l (by omega)⟩
  · have agree := rootPassWithin_agree listed le roots
    exact ⟨agree.same l (by omega), agree.ends l (by omega)⟩

end Dartify.Program
