import Mathlib.Data.List.Basic
import Dartify.Files.Path

/-! How paths are spelled. The names in a path that comes from a text hold no slash and are no
points, and normalizing leaves no single point behind. Main statement: such a path is what its own
spelling is read as, so paths that differ are spelled differently. -/
namespace Dartify

namespace Text

theorem split_eq_splitOn (mark : Char) (cs : List Char) : split mark cs = cs.splitOn mark := by
  induction cs with
  | nil => rfl
  | cons c cs ih =>
    rw [List.splitOn_cons_eq_if_modifyHead, ← ih, split]
    by_cases same : c = mark
    · simp [same]
    · have pieces := split_ne_nil mark cs
      cases e : split mark cs with
      | nil => exact absurd e pieces
      | cons p ps => simp [same]

theorem not_mem_of_mem_split {mark : Char} {cs piece : List Char} (mem : piece ∈ split mark cs) :
    mark ∉ piece := by
  induction cs generalizing piece with
  | nil =>
    cases List.mem_singleton.mp mem
    exact List.not_mem_nil
  | cons c cs ih =>
    rw [split] at mem
    split at mem
    · rcases List.mem_cons.mp mem with rfl | mem
      · exact List.not_mem_nil
      · exact ih mem
    · rename_i other
      split at mem
      · rename_i none
        exact absurd none (split_ne_nil mark cs)
      · rename_i p ps e
        rcases List.mem_cons.mp mem with rfl | mem
        · have inside : mark ∉ p := ih (by rw [e]; exact List.mem_cons_self)
          simpa [Ne.symm other] using inside
        · exact ih (by rw [e]; exact List.mem_cons_of_mem p mem)

end Text

/-- A segment that a text has between two slashes, single points apart. -/
def Segment.Plain : Segment → Prop
  | current => False
  | parent => True
  | name text => '/' ∉ text.toList ∧ ofPiece? text.toList = some (name text)

theorem Segment.plain_of_piece {piece : List Char} {s : Segment} (free : '/' ∉ piece)
    (stands : ofPiece? piece = some s) : s.Plain := by
  have whole := stands
  unfold ofPiece? at stands
  split at stands
  · cases stands
  · cases stands
  · cases stands
    trivial
  · cases stands
    have back : (String.ofList piece).toList = piece := String.toList_ofList
    exact ⟨by rw [back]; exact free, by rw [back]; exact whole⟩

theorem Segment.Plain.spelling {s : Segment} (plain : s.Plain) :
    '/' ∉ s.spelling.toList ∧ s.spelling.toList ≠ [] ∧ s.spelling.toList ≠ ['.'] ∧
      ofPiece? s.spelling.toList = some s := by
  cases s with
  | current => cases plain
  | parent => exact ⟨by decide, by decide, by decide, by decide⟩
  | name text =>
    obtain ⟨free, stands⟩ := plain
    have same : (name text).spelling = text := rfl
    rw [same]
    refine ⟨free, ?_, ?_, stands⟩
    · intro empty
      rw [empty] at stands
      cases stands
    · intro point
      rw [point] at stands
      cases stands

namespace Path

def Plain (p : Path) : Prop := ∀ s ∈ p.segments, s.Plain

/-- A path that some text spells, as far as its segments tell. -/
def Spelled (p : Path) : Prop := ∀ s ∈ p.segments, s = .current ∨ s.Plain

theorem spelled_ofText (text : String) : (ofText text).Spelled := by
  intro s mem
  rcases List.mem_append.mp mem with leading | mem
  · split at leading
    · exact Or.inl (List.mem_singleton.mp leading)
    · cases leading
  · obtain ⟨piece, listed, stands⟩ := List.mem_filterMap.mp mem
    exact Or.inr (Segment.plain_of_piece (Text.not_mem_of_mem_split listed) stands)

theorem Plain.spelled {p : Path} (plain : p.Plain) : p.Spelled := fun s mem => Or.inr (plain s mem)

theorem plain_resolve {out : List Segment} {s : Segment} (plain : ∀ x ∈ out, x.Plain)
    (spelled : s = .current ∨ s.Plain) : ∀ x ∈ Segment.resolve out s, x.Plain := by
  cases s with
  | current => exact plain
  | parent =>
    rw [Segment.resolve]
    split
    · intro x mem
      cases List.mem_singleton.mp mem
      trivial
    · intro x mem
      exact plain x (List.dropLast_subset _ mem)
  | name text =>
    have named : (Segment.name text).Plain := spelled.resolve_left nofun
    intro x mem
    rcases List.mem_append.mp mem with mem | mem
    · exact plain x mem
    · cases List.mem_singleton.mp mem
      exact named

theorem Spelled.normalize {p : Path} (spelled : p.Spelled) : p.normalize.Plain := by
  have folded : ∀ (segments out : List Segment), (∀ s ∈ segments, s = .current ∨ s.Plain) →
      (∀ x ∈ out, x.Plain) → ∀ x ∈ segments.foldl Segment.resolve out, x.Plain := by
    intro segments
    induction segments with
    | nil => exact fun out _ plain => plain
    | cons s segments ih =>
      intro out spelled plain
      have here := plain_resolve plain (spelled s List.mem_cons_self)
      exact ih _ (fun x mem => spelled x (List.mem_cons_of_mem s mem)) here
  exact folded p.segments [] spelled nofun

theorem Plain.directory {p : Path} (plain : p.Plain) : p.directory.Plain := by
  unfold Path.directory
  split
  · exact nofun
  · exact fun s mem => plain s (List.dropLast_subset _ mem)

theorem Spelled.join {directory p : Path} (inside : directory.Spelled) (spelled : p.Spelled) :
    (directory.join p).Spelled := by
  unfold Path.join
  split
  · exact spelled
  · split
    · intro s mem
      rcases List.mem_append.mp mem with mem | mem
      · exact inside s mem
      · exact spelled s (List.mem_filter.mp mem).1
    · exact spelled

/-! ## Reading a spelling -/

theorem toList_render (p : Path) :
    p.render.toList = (if p.absolute then ['/'] else []) ++
      ['/'].intercalate (p.segments.map (·.spelling.toList)) := by
  have slash : "/".toList = ['/'] := rfl
  unfold render
  rw [String.toList_append, String.toList_intercalate, slash, List.map_map]
  cases p.absolute <;> rfl

namespace Plain

variable {p : Path} (plain : p.Plain)

include plain

theorem filterMap_pieces :
    (p.segments.map (·.spelling.toList)).filterMap Segment.ofPiece? = p.segments := by
  rw [List.filterMap_map]
  calc p.segments.filterMap (Segment.ofPiece? ∘ (·.spelling.toList))
      = p.segments.filterMap some := List.filterMap_congr fun s mem => (plain s mem).spelling.2.2.2
    _ = p.segments := List.filterMap_some

/-- The stretches between the slashes of a relative spelling. -/
theorem split_eq :
    Text.split '/' (['/'].intercalate (p.segments.map (·.spelling.toList))) =
      if p.segments = [] then [[]] else p.segments.map (·.spelling.toList) := by
  rw [Text.split_eq_splitOn]
  split
  · rename_i none
    rw [none]
    rfl
  · rename_i some
    refine List.splitOn_intercalate '/' ?_ (by simpa using some)
    intro piece listed
    obtain ⟨s, mem, rfl⟩ := List.mem_map.mp listed
    exact (plain s mem).spelling.1

theorem segments_split :
    (Text.split '/' (['/'].intercalate (p.segments.map (·.spelling.toList)))).filterMap
      Segment.ofPiece? = p.segments := by
  rw [plain.split_eq]
  split
  · rename_i none
    rw [none]
    rfl
  · exact plain.filterMap_pieces

theorem first_split (piece : List Char)
    (first : (Text.split '/' (['/'].intercalate (p.segments.map (·.spelling.toList)))).head? =
      some piece) : piece ≠ ['.'] ∧ (piece = [] → p.segments = []) := by
  rw [plain.split_eq] at first
  split at first
  · rename_i none
    cases first
    exact ⟨by decide, fun _ => none⟩
  · obtain ⟨s, mem, rfl⟩ := List.mem_map.mp (List.mem_of_head? first)
    obtain ⟨-, full, notPoint, -⟩ := (plain s mem).spelling
    exact ⟨notPoint, fun empty => absurd empty full⟩

/-- A relative spelling does not begin with a slash. -/
theorem relative :
    (['/'].intercalate (p.segments.map (·.spelling.toList))).head? ≠ some '/' := by
  intro slash
  have first := plain.first_split
  cases body : ['/'].intercalate (p.segments.map (·.spelling.toList)) with
  | nil =>
    rw [body] at slash
    cases slash
  | cons c cs =>
    rw [body] at slash first
    cases slash
    have none := (first [] (by simp [Text.split])).2 rfl
    rw [none] at body
    cases body

/-- A normal path is what its own spelling is read as. -/
theorem ofText_render : ofText p.render = p := by
  have leading := plain.first_split
  have segments := plain.segments_split
  have relative := plain.relative
  obtain ⟨absolute, parts⟩ := p
  unfold ofText
  rw [toList_render]
  generalize ['/'].intercalate (parts.map (·.spelling.toList)) = body at *
  cases absolute with
  | false =>
    have point : (Text.split '/' body).head? ≠ some ['.'] := fun first => (leading _ first).1 rfl
    simp [relative, point, segments]
  | true =>
    have cut : Text.split '/' ('/' :: body) = [] :: Text.split '/' body := by simp [Text.split]
    have none : Segment.ofPiece? [] = none := rfl
    simp [cut, none, segments]

end Plain

end Path

end Dartify
