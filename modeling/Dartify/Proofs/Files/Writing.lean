import Dartify.Files.Volume

/-! Writing into a volume. The way to a file leads through directories, so that a file put at its
end makes no directory that was not there. Main statement: a path that was written leads to what
was written, and every other location holds what it held. -/
namespace Dartify.Volume

variable {v w : Volume} {p : Path} {location place other : List String} {segments : List Segment}
  {found : Found} {content : ByteArray}

/-! ## Putting a file at a location -/

/-- What is entered at a location itself. -/
def entered? (v : Volume) (location : List String) : Option Entry :=
  (v.entries.find? fun (l, _) => l == location).map (·.2)

/-- Something is entered at a location or below it. -/
def Holds (v : Volume) (location : List String) : Prop :=
  ∃ below e, (below, e) ∈ v.entries ∧ location <+: below

theorem entry?_eq (v : Volume) (location : List String) :
    v.entry? location = (v.entered? location).or
      (if location.isEmpty || v.entries.any fun (l, _) => location.isPrefixOf l then
        some .directory else none) := by
  unfold entry? entered?
  cases v.entries.find? fun (l, _) => l == location <;> rfl

theorem holds_of_entry? {e : Entry} (stands : v.entry? location = some e) (inner : location ≠ []) :
    v.Holds location := by
  rw [entry?_eq, Option.or_eq_some_iff] at stands
  rcases stands with known | ⟨-, implied⟩
  · obtain ⟨⟨l, e'⟩, first, -⟩ := Option.map_eq_some_iff.mp known
    have same : l = location := by simpa using List.find?_some first
    exact ⟨l, e', List.mem_of_find?_eq_some first, by simp [same]⟩
  · simp only [List.isEmpty_eq_false_iff.mpr inner, Bool.false_or, List.any_eq_true,
      List.isPrefixOf_iff_prefix, Option.ite_none_right_eq_some] at implied
    obtain ⟨⟨⟨below, e'⟩, mem, way⟩, -⟩ := implied
    exact ⟨below, e', mem, way⟩

theorem entry?_congr (entered : w.entered? location = v.entered? location)
    (holds : location ≠ [] → (w.Holds location ↔ v.Holds location)) :
    w.entry? location = v.entry? location := by
  rw [entry?_eq, entry?_eq, entered]
  by_cases outer : location = []
  · simp [outer]
  · have implied : (w.entries.any fun (l, _) => location.isPrefixOf l) =
        v.entries.any fun (l, _) => location.isPrefixOf l := by
      rw [Bool.eq_iff_iff]
      simpa [Holds] using holds outer
    rw [implied]

theorem entered?_put_ne (apart : other ≠ location) :
    (v.put location content).entered? other = v.entered? other := by
  simp only [entered?, put, List.find?_cons, beq_eq_false_iff_ne.mpr apart.symm,
    List.find?_filter]
  congr 2
  funext ⟨l, e⟩
  by_cases here : l = other <;> simp [here, apart]

theorem holds_put :
    (v.put location content).Holds other ↔ other <+: location ∨ v.Holds other := by
  constructor
  · rintro ⟨below, e, mem, way⟩
    rcases List.mem_cons.mp mem with here | mem
    · cases here
      exact .inl way
    · exact .inr ⟨below, e, (List.mem_filter.mp mem).1, way⟩
  · rintro (way | ⟨below, e, mem, way⟩)
    · exact ⟨location, .file content, List.mem_cons_self, way⟩
    · by_cases here : below = location
      · exact ⟨location, .file content, List.mem_cons_self, here ▸ way⟩
      · exact ⟨below, e, by simp [put, mem, here], way⟩

theorem entry?_put (v : Volume) (location : List String) (content : ByteArray) :
    entry? (v.put location content) location = some (.file content) := by
  simp [put, entry?]

/-- A location and all above it are directories. -/
def Passable (v : Volume) (location : List String) : Prop :=
  ∀ upper, upper <+: location → upper ≠ [] → v.entry? upper = some .directory

theorem Passable.nil (v : Volume) : v.Passable [] := by
  intro upper way inner
  exact absurd (List.prefix_nil.mp way) inner

theorem Passable.dropLast (passable : v.Passable location) : v.Passable location.dropLast :=
  fun upper way => passable upper (way.trans (List.dropLast_prefix location))

theorem Passable.snoc {name : String} (passable : v.Passable location)
    (stands : v.entry? (location ++ [name]) = some .directory) :
    v.Passable (location ++ [name]) := by
  intro upper way inner
  rcases List.prefix_concat_iff.mp way with rfl | way
  · exact stands
  · exact passable upper way inner

theorem entry?_put_ne {name : String} (passable : v.Passable location)
    (apart : other ≠ location ++ [name]) :
    entry? (v.put (location ++ [name]) content) other = v.entry? other := by
  apply entry?_congr (entered?_put_ne apart)
  intro inner
  rw [holds_put, or_iff_right_of_imp]
  intro way
  have above : other <+: location := (List.prefix_concat_iff.mp way).resolve_left apart
  exact holds_of_entry? (passable other above inner) inner

/-! ## Following segments -/

/-- Where a file stands, or would stand. -/
def Found.place? : Found → Option (List String)
  | .file location _ => some location
  | .vacancy location => some location
  | _ => none

/-- Segments lead to a place in a directory, and still do when a file is put there. -/
structure Reaches (v : Volume) (location : List String) (segments : List Segment)
    (place : List String) : Prop where
  inside : ∃ directory name, place = directory ++ [name] ∧ v.Passable directory
  free : v.entry? place ≠ some .directory
  stable : ∀ (w : Volume) (content : ByteArray),
    (∀ other, v.entry? other = some .directory → w.entry? other = some .directory) →
      w.entry? place = some (.file content) →
        w.follow location segments = .ok (.file place content)

theorem reaches_name {name : String} (passable : v.Passable location) (short : ¬ isLong name)
    (free : v.entry? (location ++ [name]) ≠ some .directory) :
    v.Reaches location [.name name] (location ++ [name]) where
  inside := ⟨location, name, rfl, passable⟩
  free := free
  stable w content _ stands := by simp [follow, short, stands]

theorem reaches_of_follow (passable : v.Passable location)
    (led : v.follow location segments = .ok found) (ends : found.place? = some place) :
    v.Reaches location segments place := by
  fun_induction follow v location segments with
  | case1 | case3 =>
    cases led
    cases ends
  | case4 | case6 | case9 | case11 => cases led
  | case2 location rest ih =>
    have reaches := ih passable led
    refine ⟨reaches.inside, reaches.free, ?_⟩
    intro w content directories stands
    simpa [follow] using reaches.stable w content directories stands
  | case5 location rest inner ih =>
    have reaches := ih passable.dropLast led
    refine ⟨reaches.inside, reaches.free, ?_⟩
    intro w content directories stands
    simpa [follow, inner] using reaches.stable w content directories stands
  | case7 location name rest inner short stands ih =>
    have reaches := ih (passable.snoc stands) led
    refine ⟨reaches.inside, reaches.free, ?_⟩
    intro w content directories stands'
    have open' : w.entry? (location ++ [name]) = some .directory := directories _ stands
    simpa [follow, short, open'] using reaches.stable w content directories stands'
  | case8 location name rest inner short _ stands last
  | case10 location name rest inner short stands last =>
    obtain rfl := List.isEmpty_iff.mp last
    cases led
    have free : v.entry? inner ≠ some .directory := by simp [stands]
    have same : inner = place := Option.some.inj ends
    rw [← same]
    exact reaches_name passable short free

theorem place_of_followSystem (led : followSystem location segments = .ok found) :
    found.place? = none := by
  fun_induction followSystem location segments with
  | case1 | case6 =>
    cases led
    rfl
  | case2 _ _ ih | case3 _ _ ih | case5 _ _ _ _ _ _ ih => exact ih led
  | case4 | case7 | case8 => cases led

/-! ## Writing at a path -/

/-- A path to a place in a volume is relative, so that every volume follows it from its own
directory. -/
theorem find_of_place (led : v.find p = .ok found) (ends : found.place? = some place)
    (w : Volume) : w.find p = w.follow [] p.segments := by
  unfold find at led ⊢
  split at led
  · cases led
  · rename_i plain
    split at led
    · cases led
    · rename_i short
      split at led
      · simp [place_of_followSystem led] at ends
      · rename_i relative
        split at led
        · cases led
        · rename_i long
          simp [plain, short, relative, long]

theorem find_put (led : v.find p = .ok found) (ends : found.place? = some place) :
    (v.put place content).find p = .ok (.file place content) ∧
      ∀ other ≠ place, entry? (v.put place content) other = v.entry? other := by
  have way : v.follow [] p.segments = .ok found := by rw [← find_of_place led ends v, led]
  obtain ⟨⟨directory, name, rfl, passable⟩, free, stable⟩ :=
    reaches_of_follow (Passable.nil v) way ends
  constructor
  · rw [find_of_place led ends]
    apply stable _ _ _ (entry?_put v _ content)
    intro other stands
    rw [entry?_put_ne passable, stands]
    rintro rfl
    exact free stands
  · intro other apart
    exact entry?_put_ne passable apart

theorem read_of_find {text : String} (led : v.find p = .ok (.file place text.toUTF8)) :
    v.read p = .ok text := by
  have decoded : String.fromUTF8? text.toUTF8 = some text := dif_pos text.isValidUTF8
  simp only [read, led, decoded]

/-- A path leads to a file, which holds a text; nothing else has changed. -/
structure Stored (v : Volume) (path text : String) (after : Volume) : Prop where
  place : ∃ found place, v.find (.ofText path) = .ok found ∧ found.place? = some place ∧
    after.entry? place = some (.file text.toUTF8) ∧
      ∀ other ≠ place, after.entry? other = v.entry? other
  readable : after.read (.ofText path) = .ok text
  printed : after.printed = v.printed

theorem stored_put {path text : String} (led : v.find (.ofText path) = .ok found)
    (ends : found.place? = some place) : v.Stored path text (v.put place text.toUTF8) := by
  obtain ⟨leads, kept⟩ := find_put led ends
  exact ⟨⟨found, place, led, ends, entry?_put v place _, kept⟩, read_of_find leads, rfl⟩

theorem write_slash {path : String} (slash : path.toList.getLast? = some '/') (text : String) :
    ∃ fault, v.write path text = .error fault := by
  cases led : v.find (.ofText path) with
  | error fault => simp [write, led]
  | ok found => cases found <;> simp [write, led, slash]

theorem write_ok {path text : String} {after : Volume} (done : v.write path text = .ok after) :
    v.Stored path text after ∨
      ∃ device, v.find (.ofText path) = .ok (.device device) ∧ after = v.send device text := by
  have bare : path.toList.getLast? ≠ some '/' := by
    intro slash
    obtain ⟨fault, fails⟩ := write_slash slash text
    cases fails.symm.trans done
  cases led : v.find (.ofText path) with
  | error fault => simp [write, led] at done
  | ok found =>
    cases found with
    | directory => simp [write, led] at done
    | device device =>
      simp only [write, led, bare, if_false, Except.ok.injEq] at done
      exact .inr ⟨device, rfl, done.symm⟩
    | vacancy location | file location =>
      simp only [write, led, bare, if_false, Except.ok.injEq] at done
      rw [← done]
      exact .inl (stored_put led rfl)

/-- Whether a path can be written does not depend on what is written. -/
theorem write_fault {path text : String} {fault : FileFault}
    (fails : v.write path text = .error fault) (other : String) :
    v.write path other = .error fault := by
  cases led : v.find (.ofText path) with
  | error fault => simpa [write, led] using fails
  | ok found =>
    by_cases slash : path.toList.getLast? = some '/'
    · cases found <;> simpa [write, led, slash] using fails
    · cases found with
      | directory => simpa [write, led] using fails
      | file | vacancy | device => simp [write, led, slash] at fails

end Dartify.Volume
