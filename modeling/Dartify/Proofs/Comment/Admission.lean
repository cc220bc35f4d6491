import Dartify.Comment.Cursor
import Dartify.Comment.Scan

/-! What a cursor lets through of the comments that are presented to it. It only moves forward, so a
comment is lost when one that starts further on is presented before it. Main statement: of comments
told apart by their starts each is let through once, unless it is overtaken. -/
namespace Dartify.Comment

/-- The comments that a cursor lets through, in order. -/
def Cursor.kept : Cursor → List Range → List Range
  | _, [] => []
  | c, r :: rs => if c.admits r.start then r :: kept ⟨some r.start⟩ rs else kept c rs

/-- Whether a comment that starts further on comes in front of the first occurrence of one. -/
def Overtaken (presented : List Range) (r : Range) : Prop :=
  ∃ r' ∈ presented.takeWhile (· ≠ r), r.start < r'.start

instance (presented : List Range) (r : Range) : Decidable (Overtaken presented r) :=
  inferInstanceAs (Decidable (∃ r' ∈ _, _))

namespace Cursor

variable {c : Cursor} {r x : Range} {presented : List Range}

theorem mem_of_mem_kept (mem : r ∈ c.kept presented) : r ∈ presented := by
  induction presented generalizing c with
  | nil => exact mem
  | cons x presented ih =>
    rw [kept] at mem
    split at mem
    · rcases List.mem_cons.mp mem with rfl | mem
      · exact List.mem_cons_self
      · exact List.mem_cons_of_mem x (ih mem)
    · exact List.mem_cons_of_mem x (ih mem)

theorem admits_after_iff (start n : Nat) :
    (Cursor.mk (some start)).admits n = true ↔ start < n := by
  simp [admits]

theorem refuses_after (refused : c.admits r.start = false) (admitted : c.admits x.start = true) :
    (Cursor.mk (some x.start)).admits r.start = false := by
  obtain ⟨furthest⟩ := c
  cases furthest with
  | none => cases refused
  | some f =>
    simp only [admits, decide_eq_false_iff_not, decide_eq_true_eq] at refused admitted ⊢
    omega

theorem refuses_behind (refused : c.admits x.start = false) (behind : r.start < x.start) :
    c.admits r.start = false := by
  obtain ⟨furthest⟩ := c
  cases furthest with
  | none => cases refused
  | some f =>
    simp only [admits, decide_eq_false_iff_not] at refused ⊢
    omega

theorem count_kept_refused (refused : c.admits r.start = false) :
    (c.kept presented).count r = 0 := by
  induction presented generalizing c with
  | nil => rfl
  | cons x presented ih =>
    rw [kept]
    split
    · rename_i admitted
      have other : x ≠ r := by
        rintro rfl
        rw [refused] at admitted
        cases admitted
      rw [List.count_cons_of_ne other]
      exact ih (refuses_after refused admitted)
    · exact ih refused

theorem overtaken_cons (other : x ≠ r) :
    Overtaken (x :: presented) r ↔ r.start < x.start ∨ Overtaken presented r := by
  simp [Overtaken, other]

theorem not_overtaken_self : ¬ Overtaken (r :: presented) r := by
  simp [Overtaken]

/-- How often a comment is let through by a cursor that does not refuse it at first. -/
theorem count_kept (apart : ∀ x ∈ presented, x.start = r.start → x = r) (mem : r ∈ presented)
    (admitted : c.admits r.start = true) :
    (c.kept presented).count r = if Overtaken presented r then 0 else 1 := by
  induction presented generalizing c with
  | nil => cases mem
  | cons x presented ih =>
    by_cases other : x = r
    · subst other
      have once : (Cursor.kept ⟨some x.start⟩ presented).count x = 0 :=
        count_kept_refused (by simp [admits])
      rw [kept, if_pos admitted, List.count_cons_self, once, if_neg not_overtaken_self]
    · have starts : x.start ≠ r.start := fun same => other (apart x List.mem_cons_self same)
      have mem : r ∈ presented := (List.mem_cons.mp mem).resolve_left (Ne.symm other)
      have apart : ∀ x ∈ presented, x.start = r.start → x = r :=
        fun y hy => apart y (List.mem_cons_of_mem x hy)
      have here : Overtaken (x :: presented) r ↔ r.start < x.start ∨ Overtaken presented r :=
        overtaken_cons other
      rw [kept]
      -- Either `x` overtakes `r`, or the cursor still admits `r` behind it.
      by_cases behind : r.start < x.start
      · have overtaken : Overtaken (x :: presented) r := here.mpr (Or.inl behind)
        rw [if_pos overtaken]
        split
        · rw [List.count_cons_of_ne other]
          exact count_kept_refused (by simp only [admits, decide_eq_false_iff_not]; omega)
        · rename_i refused
          exact count_kept_refused (refuses_behind (by simpa using refused) behind)
      · have same : Overtaken (x :: presented) r ↔ Overtaken presented r := by
          rw [here]
          exact or_iff_right behind
        simp only [same]
        split
        · rw [List.count_cons_of_ne other]
          exact ih apart mem ((admits_after_iff ..).mpr (by omega))
        · exact ih apart mem admitted

end Cursor

end Dartify.Comment
