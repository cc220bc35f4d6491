import Dartify.Proofs.Files.Destination
import Dartify.Proofs.Files.Spelling

/-! The normal form of a path. Normalizing leads to a path of one step up at most and names behind
it, and leaves such a path alone. What a path resolves to from there on depends only on its normal
form, so a directory may be normalized before a path is joined to it, and single points and a name
that two points take back change nothing wherever they stand. -/
namespace Dartify

namespace Segment

theorem resolve_name_parent (out : List Segment) (text : String) :
    resolve (resolve out (name text)) parent = out := by
  simp [resolve]

theorem foldl_resolve_filter (segments out : List Segment) :
    (segments.filter (· != current)).foldl resolve out = segments.foldl resolve out := by
  induction segments generalizing out with
  | nil => rfl
  | cons s segments ih =>
    cases s with
    | current => exact ih out
    | parent => exact ih _
    | name text => exact ih _

/-- What is kept of a way resolves to itself. -/
theorem foldl_resolve_kept (way : Nat × List String) : (kept way).foldl resolve [] = kept way := by
  have again : (kept way).foldl resolve (kept (0, [])) = kept (way.1 % 2, way.2) := by
    rw [foldl_resolve, foldl_advance_kept]
  have same : kept (way.1 % 2, way.2) = kept way := by simp [kept]
  exact again.trans same

/-- The segments between the slashes of a text, single points apart. -/
def between (cs : List Char) : List Segment := (Text.split '/' cs).filterMap ofPiece?

theorem between_append (as bs : List Char) :
    between (as ++ '/' :: bs) = between as ++ between bs := by
  rw [between, Text.split_append, List.filterMap_append]
  rfl

theorem Plain.between_eq {text : String} (ordinary : (name text).Plain) :
    between text.toList = [name text] := by
  rw [between, Text.split_whole ordinary.1, List.filterMap_cons_some ordinary.2]
  rfl

/-- All but points are names. -/
theorem exists_names {segments : List Segment} (pointless : .current ∉ segments)
    (level : .parent ∉ segments) : ∃ names : List String, segments = names.map name := by
  induction segments with
  | nil => exact ⟨[], rfl⟩
  | cons s segments ih =>
    rw [List.mem_cons, not_or] at pointless level
    obtain ⟨names, rfl⟩ := ih pointless.2 level.2
    cases s with
    | current => exact absurd rfl pointless.1
    | parent => exact absurd rfl level.1
    | name text => exact ⟨text :: names, rfl⟩

end Segment

namespace Path

open Segment

/-- There are no single points, and two points once at most, in front of all names. -/
structure Canonical (p : Path) : Prop where
  pointless : .current ∉ p.segments
  once : p.segments.count .parent ≤ 1
  front : ∀ before after, p.segments = before ++ .parent :: after → ∀ text, .name text ∉ before

theorem canonical_normalize (p : Path) : p.normalize.Canonical := by
  have shape := p.segments_normalize
  have level (names : List String) : parent ∉ names.map name := by simp
  refine ⟨?_, ?_, ?_⟩
  · rw [shape, kept]
    split <;> simp
  · rw [shape, kept, List.count_append, List.count_eq_zero.mpr (level _)]
    split <;> decide
  · intro before after cut text mem
    rw [shape, kept] at cut
    -- Behind a name there are only names, so the two points are the first segment.
    split at cut
    · cases before with
      | nil => cases mem
      | cons s before =>
        have rest : p.way.2.map name = before ++ parent :: after := (List.cons.inj cut).2
        exact level p.way.2 (rest ▸ List.mem_append_right before List.mem_cons_self)
    · rw [List.nil_append] at cut
      exact level p.way.2 (cut ▸ List.mem_append_right before List.mem_cons_self)

theorem Canonical.exists_way {p : Path} (canonical : p.Canonical) :
    ∃ way, p.segments = kept way := by
  obtain ⟨pointless, once, front⟩ := canonical
  cases shape : p.segments with
  | nil => exact ⟨(0, []), rfl⟩
  | cons s segments =>
    rw [shape] at pointless once front
    rw [List.mem_cons, not_or] at pointless
    cases s with
    | current => exact absurd rfl pointless.1
    | parent =>
      have level : .parent ∉ segments := by
        rw [List.count_cons_self] at once
        exact List.count_eq_zero.mp (by omega)
      obtain ⟨names, rfl⟩ := exists_names pointless.2 level
      exact ⟨(1, names), rfl⟩
    | name text =>
      have level : .parent ∉ segments := by
        intro mem
        obtain ⟨before, after, rfl⟩ := List.append_of_mem mem
        exact front (name text :: before) after rfl text List.mem_cons_self
      obtain ⟨names, rfl⟩ := exists_names pointless.2 level
      exact ⟨(0, text :: names), rfl⟩

/-- Normalizing leaves a path alone that is in normal form. -/
theorem Canonical.normalize_eq {p : Path} (canonical : p.Canonical) : p.normalize = p := by
  obtain ⟨way, shape⟩ := canonical.exists_way
  obtain ⟨absolute, segments⟩ := p
  obtain rfl : segments = kept way := shape
  rw [normalize, foldl_resolve_kept]

theorem normalize_normalize (p : Path) : p.normalize.normalize = p.normalize :=
  p.canonical_normalize.normalize_eq

/-- A relative path goes on from where its directory has led. -/
theorem normalize_join (d : Path) {r : Path} (relative : r.absolute = false) :
    (d.join r).normalize = ⟨d.absolute, r.segments.foldl resolve d.normalize.segments⟩ := by
  obtain ⟨absolute, segments⟩ := d
  rw [join, if_neg (by simp [relative])]
  split
  · simp only [normalize, List.foldl_append, foldl_resolve_filter]
  · rename_i nowhere
    obtain ⟨rfl, rfl⟩ : absolute = false ∧ segments = [] := by simpa using nowhere
    rw [normalize, relative]
    rfl

theorem normalize_join_normalize (d r : Path) :
    (d.normalize.join r).normalize = (d.join r).normalize := by
  cases rooted : r.absolute with
  | true => simp only [join, rooted, if_true]
  | false => rw [normalize_join _ rooted, normalize_join _ rooted, normalize_normalize]; rfl

/-! ## Paths that are spelled -/

theorem foldl_resolve_ofText (text : String) (out : List Segment) :
    (ofText text).segments.foldl resolve out = (between text.toList).foldl resolve out := by
  rw [ofText, List.foldl_append]
  split <;> rfl

theorem normalize_ofText (text : String) :
    (ofText text).normalize =
      ⟨text.toList.head? = some '/', (between text.toList).foldl resolve []⟩ := by
  rw [normalize, foldl_resolve_ofText]
  rfl

theorem between_pointed (q : String) : between ("./" ++ q).toList = between q.toList := by
  rw [String.toList_append]
  exact between_append ['.'] q.toList

/-- A name that two points take back leads nowhere. -/
theorem foldl_resolve_taken_back {x : String} (ordinary : (name x).Plain) (q : String)
    (out : List Segment) :
    (between (x ++ "/../" ++ q).toList).foldl resolve out =
      (between q.toList).foldl resolve out := by
  have cut : (x ++ "/../" ++ q).toList = x.toList ++ '/' :: (['.', '.'] ++ '/' :: q.toList) := by
    simp
  have up : between ['.', '.'] = [parent] := rfl
  rw [cut, between_append, between_append, ordinary.between_eq, up, List.foldl_append,
    List.foldl_append]
  exact congrArg (fun out => (between q.toList).foldl resolve out) (resolve_name_parent out x)

/-- Only what lies behind a slash that two texts share tells their normal forms apart. -/
theorem normalize_ofText_behind (s : String) {q q' : String}
    (same : ∀ out, (between q.toList).foldl resolve out = (between q'.toList).foldl resolve out) :
    (ofText (s ++ "/" ++ q)).normalize = (ofText (s ++ "/" ++ q')).normalize := by
  have cut (q : String) : (s ++ "/" ++ q).toList = s.toList ++ '/' :: q.toList := by simp
  rw [normalize_ofText, normalize_ofText, cut, cut, between_append, between_append,
    List.foldl_append, List.foldl_append, same, List.head?_append, List.head?_append]
  rfl

theorem absolute_ofText_of_plain {x : String} (ordinary : (name x).Plain) (rest : String) :
    (ofText (x ++ rest)).absolute = false := by
  obtain ⟨free, full, -⟩ := ordinary.spelling
  obtain ⟨c, cs, shape⟩ := List.exists_cons_of_ne_nil full
  have shape : x.toList = c :: cs := shape
  have other : c ≠ '/' := by
    rintro rfl
    exact free (shape ▸ List.mem_cons_self)
  simp [ofText, shape, other]

/-- Normalizing is stable: it leads to a normal form and leaves that alone, a directory may be
normalized first, and neither a single point nor a name that two points take back changes it. -/
theorem normalize_stable (p d r : Path) (s q x : String) (relative : (ofText q).absolute = false)
    (ordinary : (name x).Plain) :
    p.normalize.normalize = p.normalize ∧ p.normalize.Canonical ∧
      (d.normalize.join r).normalize = (d.join r).normalize ∧
      (p.join (ofText ("./" ++ q))).normalize = (p.join (ofText q)).normalize ∧
      (p.join (ofText (x ++ "/../" ++ q))).normalize = (p.join (ofText q)).normalize ∧
      (ofText (s ++ "/" ++ ("./" ++ q))).normalize = (ofText (s ++ "/" ++ q)).normalize ∧
      (ofText (s ++ "/" ++ (x ++ "/../" ++ q))).normalize = (ofText (s ++ "/" ++ q)).normalize := by
  have pointed (out : List Segment) : (between ("./" ++ q).toList).foldl resolve out =
      (between q.toList).foldl resolve out := by rw [between_pointed]
  have back := foldl_resolve_taken_back ordinary q
  refine ⟨p.normalize_normalize, p.canonical_normalize, normalize_join_normalize d r, ?_, ?_,
    normalize_ofText_behind s pointed, normalize_ofText_behind s back⟩
  · have below : (ofText ("./" ++ q)).absolute = false := by simp [ofText]
    rw [normalize_join p below, normalize_join p relative, foldl_resolve_ofText,
      foldl_resolve_ofText, pointed]
  · have below : (ofText (x ++ "/../" ++ q)).absolute = false := by
      rw [String.append_assoc]
      exact absolute_ofText_of_plain ordinary _
    rw [normalize_join p below, normalize_join p relative, foldl_resolve_ofText,
      foldl_resolve_ofText, back]

/-- Three points are a name, which two points take back. -/
theorem normalize_stable_threePoints :
    ((ofText "../c.ts").absolute = false ∧ (name "...").Plain) ∧
      (ofText "../../src/.").normalize.normalize = ofText "src" ∧
      ((ofText "/../..").normalize.join (ofText "../c.ts")).normalize = ofText "/../c.ts" ∧
      ((ofText "../../src/.").join (ofText ".../../../c.ts")).normalize = ofText "c.ts" ∧
      (ofText "/.../../../c.ts").normalize = ofText "/../c.ts" := by
  have relative : (ofText "../c.ts").absolute = false := by decide +kernel
  have ordinary : (name "...").Plain := ⟨by decide +kernel, by decide +kernel⟩
  obtain ⟨again, -, joined, -, back, -, behind⟩ := normalize_stable (ofText "../../src/.")
    (ofText "/../..") (ofText "../c.ts") "" "../c.ts" "..." relative ordinary
  exact ⟨⟨relative, ordinary⟩, again.trans (by decide +kernel), joined.trans (by decide +kernel),
    back.trans (by decide +kernel), behind.trans (by decide +kernel)⟩

end Path

end Dartify
