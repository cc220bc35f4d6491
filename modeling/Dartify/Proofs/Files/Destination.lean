import Dartify.Files.Path

/-! Where a path leads, and when its normal form leads there too. Normalizing lets two points
cancel whatever stands before them, also two points that were kept, so of several steps up in front
of a path only their parity remains. Main statement: the normal form leads to the same place
exactly if that parity does. -/
namespace Dartify

/-- Where a segment leads from a place, given by the names below the root. There is no way up from
the root. -/
def Segment.walk (place : List String) : Segment → List String
  | current => place
  | parent => place.dropLast
  | name text => place ++ [text]

/-- What a segment adds to a way: the steps up in front, and the names behind them. -/
def Segment.advance (way : Nat × List String) : Segment → Nat × List String
  | current => way
  | parent => if way.2.isEmpty then (way.1 + 1, []) else (way.1, way.2.dropLast)
  | name text => (way.1, way.2 ++ [text])

namespace Path

/-- The place that a path leads to from a directory. -/
def destination (base : List String) (p : Path) : List String :=
  p.segments.foldl Segment.walk (if p.absolute then [] else base)

/-- A path as steps up and names behind them. -/
def way (p : Path) : Nat × List String := p.segments.foldl Segment.advance (0, [])

/-- The number of steps up that no name in the path undoes. -/
def ascent (p : Path) : Nat := p.way.1

/-- The place some steps above another. -/
def climb (n : Nat) (base : List String) : List String := base.take (base.length - n)

theorem climb_zero (base : List String) : climb 0 base = base := by simp [climb]

theorem climb_nil (n : Nat) : climb n [] = [] := by simp [climb]

theorem climb_succ (n : Nat) (base : List String) :
    climb (n + 1) base = (climb n base).dropLast := by
  simp only [climb, List.dropLast_eq_take, List.length_take, List.take_take]
  congr 1
  omega

theorem length_climb (n : Nat) (base : List String) :
    (climb n base).length = base.length - n := by
  simp [climb]

theorem climb_eq_iff (m n : Nat) (base : List String) :
    climb m base = climb n base ↔ base.length - m = base.length - n := by
  constructor
  · intro h
    simpa only [length_climb] using congrArg List.length h
  · intro h
    simp only [climb, h]

end Path

namespace Segment

open Dartify.Path

/-- The place that a way leads to. -/
def ending (base : List String) (way : Nat × List String) : List String :=
  climb way.1 base ++ way.2

/-- The segments that normalizing keeps of a way. -/
def kept (way : Nat × List String) : List Segment :=
  (if way.1 % 2 = 1 then [parent] else []) ++ way.2.map name

theorem walk_ending (base : List String) (way : Nat × List String) (s : Segment) :
    walk (ending base way) s = ending base (advance way s) := by
  obtain ⟨ups, names⟩ := way
  cases s with
  | current => rfl
  | name text => simp [walk, ending, advance]
  | parent =>
    by_cases h : names = []
    · subst h
      simp [walk, ending, advance, climb_succ]
    · simp [walk, ending, advance, h, List.dropLast_append_of_ne_nil]

theorem resolve_kept (way : Nat × List String) (s : Segment) :
    resolve (kept way) s = kept (advance way s) := by
  obtain ⟨ups, names⟩ := way
  cases s with
  | current => rfl
  | name text =>
    simp only [resolve, kept, advance, List.map_append, List.map_cons, List.map_nil,
      List.append_assoc]
    rfl
  | parent =>
    by_cases h : names = []
    · subst h
      -- Two points that were kept are cancelled by the next two points.
      rcases Nat.mod_two_eq_zero_or_one ups with even | odd
      · have next : (ups + 1) % 2 = 1 := by omega
        simp [resolve, kept, advance, even, next]
      · have next : (ups + 1) % 2 = 0 := by omega
        simp [resolve, kept, advance, odd, next]
    · have full : kept (ups, names) ≠ [] := by simp [kept, h]
      simp [resolve, kept, advance, h, List.dropLast_append_of_ne_nil]

theorem foldl_walk (base : List String) (segments : List Segment) (way : Nat × List String) :
    segments.foldl walk (ending base way) = ending base (segments.foldl advance way) := by
  induction segments generalizing way with
  | nil => rfl
  | cons s segments ih =>
    rw [List.foldl_cons, List.foldl_cons, walk_ending, ih]

theorem foldl_resolve (segments : List Segment) (way : Nat × List String) :
    segments.foldl resolve (kept way) = kept (segments.foldl advance way) := by
  induction segments generalizing way with
  | nil => rfl
  | cons s segments ih =>
    rw [List.foldl_cons, List.foldl_cons, resolve_kept, ih]

theorem foldl_advance_names (way : Nat × List String) (names : List String) :
    (names.map name).foldl advance way = (way.1, way.2 ++ names) := by
  induction names generalizing way with
  | nil => simp
  | cons text names ih =>
    rw [List.map_cons, List.foldl_cons, ih]
    simp [advance]

theorem foldl_advance_kept (way : Nat × List String) :
    (kept way).foldl advance (0, []) = (way.1 % 2, way.2) := by
  obtain ⟨ups, names⟩ := way
  rw [kept, List.foldl_append]
  rcases Nat.mod_two_eq_zero_or_one ups with even | odd
  · simp [even, foldl_advance_names]
  · simp [odd, foldl_advance_names, advance]

end Segment

namespace Path

theorem destination_eq (base : List String) (p : Path) :
    p.destination base = climb p.ascent (if p.absolute then [] else base) ++ p.way.2 := by
  have h := Segment.foldl_walk (if p.absolute then [] else base) p.segments (0, [])
  simp only [Segment.ending, climb_zero, List.append_nil] at h
  exact h

theorem segments_normalize (p : Path) : p.normalize.segments = Segment.kept p.way :=
  Segment.foldl_resolve p.segments (0, [])

theorem way_normalize (p : Path) : p.normalize.way = (p.ascent % 2, p.way.2) := by
  rw [way, segments_normalize]
  exact Segment.foldl_advance_kept p.way

/-- The normal form of a path leads to the same place from a directory exactly if the path is
absolute, goes up at most once, or the directory is too close to the root to tell. -/
theorem destination_normalize_iff (base : List String) (p : Path) :
    p.normalize.destination base = p.destination base ↔
      p.absolute = true ∨ p.ascent ≤ 1 ∨ base.length ≤ p.ascent % 2 := by
  have rooted : p.normalize.absolute = p.absolute := rfl
  have ups : p.normalize.ascent = p.ascent % 2 := congrArg Prod.fst p.way_normalize
  have names : p.normalize.way.2 = p.way.2 := by rw [way_normalize]
  rw [destination_eq, destination_eq, rooted, ups, names, List.append_left_inj]
  cases h : p.absolute with
  | true => simp [climb_nil]
  | false =>
    simp only [Bool.false_eq_true, if_false, false_or, climb_eq_iff]
    omega

/-- Of two steps up the normal form keeps none, and leads elsewhere. -/
theorem destination_normalize_two_ups :
    (ofText "../../a.ts").normalize.destination ["home", "project"] ≠
      (ofText "../../a.ts").destination ["home", "project"] := by
  decide +kernel

end Path

end Dartify
