import Dartify.Program.Reference
import Dartify.Proofs.Text.Lines

/-! The header of a text as a grammar of lines and directives. Main statement: the paths that a
header names are those of the directives among its lines, in order, and nothing behind the first
line that does not belong to it matters. -/
namespace Dartify.Reference

/-- A line that belongs to the header, without the white space at its ends. -/
def Heads (inner : List Char) : Prop :=
  inner = [] ∨ "//".toList <+: inner ∨ "#!".toList <+: inner

/-- A directive and the path that it names. The quotes around the path may differ, and white space
stands where the blanks are; of these only the ones in front of `path` must be there. -/
inductive Directive : List Char → List Char → Prop
  | mk (b₁ b₂ b₃ b₄ path rest : List Char) {q q' : Char}
      (blank : ∀ c ∈ b₁ ++ b₂ ++ b₃ ++ b₄, Text.isWhiteSpace c = true) (apart : b₂ ≠ [])
      (opens : isQuote q = true) (closes : isQuote q' = true) (named : path ≠ [])
      (free : ∀ c ∈ path, isQuote c = false) :
      Directive ("///".toList ++ (b₁ ++ ("<reference".toList ++ (b₂ ++ ("path".toList ++
        (b₃ ++ ("=".toList ++ (b₄ ++ q :: (path ++ q' :: rest))))))))) path

/-- The paths that lines name, read up to the first that does not belong to the header. -/
inductive Names : List (List Char) → List (List Char) → Prop
  | done : Names [] []
  | outside {line inner : List Char} (lines : List (List Char)) (trimmed : Text.Trimmed line inner)
      (ends : ¬ Heads inner) : Names (line :: lines) []
  | directive {line inner path : List Char} {lines paths : List (List Char)}
      (trimmed : Text.Trimmed line inner) (directive : Directive inner path)
      (more : Names lines paths) : Names (line :: lines) (path :: paths)
  | other {line inner : List Char} {lines paths : List (List Char)}
      (trimmed : Text.Trimmed line inner) (heads : Heads inner)
      (plain : ∀ path, ¬ Directive inner path) (more : Names lines paths) :
      Names (line :: lines) paths

/-! ## Directives -/

theorem afterRun_eq_some_iff {run cs rest : List Char} :
    afterRun run cs = some rest ↔ cs = run ++ rest := by
  unfold afterRun
  split
  · rename_i begins
    have whole := List.prefix_iff_eq_append.mp (List.isPrefixOf_iff_prefix.mp begins)
    constructor
    · intro same
      rw [← Option.some.inj same, whole]
    · rintro rfl
      rw [List.drop_left]
  · rename_i other
    constructor
    · intro same
      cases same
    · rintro rfl
      exact absurd (List.isPrefixOf_iff_prefix.mpr (List.prefix_append run rest)) other

theorem afterBlanks_eq_some_iff {cs rest : List Char} :
    afterBlanks cs = some rest ↔ ∃ blanks, cs = blanks ++ rest ∧ blanks ≠ [] ∧
      (∀ c ∈ blanks, Text.isWhiteSpace c = true) ∧
      ∀ c, rest.head? = some c → Text.isWhiteSpace c = false := by
  constructor
  · intro found
    unfold afterBlanks at found
    split at found
    · rename_i c cs
      split at found
      · rename_i blank
        obtain ⟨more, rfl, blanks, stops⟩ := Text.dropWhile_eq_iff.mp (Option.some.inj found)
        refine ⟨c :: more, rfl, List.cons_ne_nil _ _, ?_, stops⟩
        exact List.forall_mem_cons.mpr ⟨blank, blanks⟩
      · cases found
    · cases found
  · rintro ⟨blanks, rfl, some, blank, stops⟩
    cases blanks with
    | nil => exact absurd rfl some
    | cons c blanks =>
      obtain ⟨here, blank⟩ := List.forall_mem_cons.mp blank
      rw [List.cons_append, afterBlanks, if_pos here]
      exact congrArg Option.some (Text.dropWhile_eq_iff.mpr ⟨blanks, rfl, blank, stops⟩)

theorem quoted_eq_some_iff {cs path : List Char} :
    quoted cs = some path ↔ ∃ q q' rest, cs = q :: (path ++ q' :: rest) ∧ isQuote q = true ∧
      isQuote q' = true ∧ path ≠ [] ∧ ∀ c ∈ path, isQuote c = false := by
  cases cs with
  | nil => simp [quoted]
  | cons q cs =>
    constructor
    · intro found
      simp only [quoted] at found
      split at found
      · rename_i facts
        simp only [Bool.and_eq_true, Bool.not_eq_true', List.isEmpty_eq_false_iff,
          decide_eq_true_eq] at facts
        obtain ⟨⟨opens, named⟩, short⟩ := facts
        cases found
        have whole := List.takeWhile_append_dropWhile (p := fun c => !isQuote c) (l := cs)
        have free : ∀ c ∈ cs.takeWhile fun c => !isQuote c, isQuote c = false := fun c mem => by
          simpa using List.mem_takeWhile_imp mem
        have stops := List.head?_dropWhile_not (fun c => !isQuote c) cs
        cases behind : cs.dropWhile fun c => !isQuote c with
        | nil =>
          rw [behind, List.append_nil] at whole
          rw [whole] at short
          exact absurd short (Nat.lt_irrefl _)
        | cons q' rest =>
          rw [behind] at whole stops
          exact ⟨q, q', rest, by rw [whole], opens, by simpa using stops, named, free⟩
      · cases found
    · rintro ⟨q, q', rest, same, opens, closes, named, free⟩
      obtain ⟨rfl, rfl⟩ := List.cons.inj same
      have run : (path ++ q' :: rest).takeWhile (fun c => !isQuote c) = path := by
        rw [List.takeWhile_append_of_pos (by simpa using free),
          List.takeWhile_cons_of_neg (by simp [closes]), List.append_nil]
      simp [quoted, run, opens, named]

theorem isQuote_visible {q : Char} (quote : isQuote q = true) : Text.isWhiteSpace q = false := by
  rcases (by simpa [isQuote] using quote : q = '"' ∨ q = '\'') with rfl | rfl <;> decide

/-- A line names exactly the path of the directive that it is. -/
theorem ofLine_eq_some_iff {line path : List Char} :
    ofLine line = some path ↔ Directive line path := by
  constructor
  · intro found
    simp only [ofLine, Option.bind_eq_bind, Option.bind_eq_some_iff, afterRun_eq_some_iff,
      afterBlanks_eq_some_iff, quoted_eq_some_iff] at found
    obtain ⟨cs₁, rfl, cs₂, opened, cs₃, ⟨b₂, rfl, apart, blank₂, -⟩, cs₄, rfl, cs₅, signed,
      q, q', rest, quoted, opens, closes, named, free⟩ := found
    obtain ⟨b₁, rfl, blank₁, -⟩ := Text.dropWhile_eq_iff.mp opened
    obtain ⟨b₃, rfl, blank₃, -⟩ := Text.dropWhile_eq_iff.mp signed
    obtain ⟨b₄, rfl, blank₄, -⟩ := Text.dropWhile_eq_iff.mp quoted
    refine .mk b₁ b₂ b₃ b₄ path rest ?_ apart opens closes named free
    simp only [List.mem_append]
    rintro c (((mem | mem) | mem) | mem)
    exacts [blank₁ c mem, blank₂ c mem, blank₃ c mem, blank₄ c mem]
  · rintro ⟨b₁, b₂, b₃, b₄, path, rest, blank, apart, opens, closes, named, free⟩
    simp only [List.mem_append] at blank
    simp only [ofLine, Option.bind_eq_bind, Option.bind_eq_some_iff, afterRun_eq_some_iff,
      afterBlanks_eq_some_iff, quoted_eq_some_iff]
    have letter : Text.isWhiteSpace 'p' = false := by decide
    have bracket : Text.isWhiteSpace '<' = false := by decide
    have sign : Text.isWhiteSpace '=' = false := by decide
    refine ⟨_, rfl, _, Text.dropWhile_eq_iff.mpr ⟨b₁, rfl, ?_, ?_⟩, _, ⟨b₂, rfl, apart, ?_, ?_⟩,
      _, rfl, _, Text.dropWhile_eq_iff.mpr ⟨b₃, rfl, ?_, ?_⟩, _, _, rest,
      Text.dropWhile_eq_iff.mpr ⟨b₄, rfl, ?_, ?_⟩, opens, closes, named, free⟩
    · exact fun c mem => blank c (by simp [mem])
    · simpa using bracket
    · exact fun c mem => blank c (by simp [mem])
    · simpa using letter
    · exact fun c mem => blank c (by simp [mem])
    · simpa using sign
    · exact fun c mem => blank c (by simp [mem])
    · simpa using isQuote_visible opens

theorem Directive.unique {line path path' : List Char} (h : Directive line path)
    (h' : Directive line path') : path = path' :=
  Option.some.inj ((ofLine_eq_some_iff.mpr h).symm.trans (ofLine_eq_some_iff.mpr h'))

/-! ## Lines of the header -/

theorem isHeader_iff {inner : List Char} : isHeader inner = true ↔ Heads inner := by
  simp [isHeader, Heads, or_assoc]

theorem Directive.heads {line path : List Char} (h : Directive line path) : Heads line := by
  cases h
  exact Or.inr (Or.inl ⟨_, rfl⟩)

/-- The paths that lines name up to the first that does not belong to the header. -/
def named (lines : List (List Char)) : List (List Char) :=
  ((lines.map Text.trim).takeWhile isHeader).filterMap ofLine

theorem named_outside {line : List Char} (ends : isHeader (Text.trim line) = false)
    (lines : List (List Char)) : named (line :: lines) = [] := by
  simp [named, ends]

theorem named_inside {line : List Char} (heads : isHeader (Text.trim line) = true)
    (lines : List (List Char)) :
    named (line :: lines) = (ofLine (Text.trim line)).toList ++ named lines := by
  cases found : ofLine (Text.trim line) <;> simp [named, heads, found]

theorem named_blank : named [[]] = [] := rfl

theorem named_split {text : List Char} {lines : List (List Char)} (are : Text.Lines text lines) :
    named (Text.split '\n' text) = named lines := by
  -- Lines are cut at line feeds only, and trimming takes the carriage return in front of them away.
  have step : ∀ {line line' : List Char} {lines lines' : List (List Char)},
      Text.trim line = Text.trim line' → named lines = named lines' →
        named (line :: lines) = named (line' :: lines') := by
    intro line line' lines lines' same rest
    cases heads : isHeader (Text.trim line) with
    | true => rw [named_inside heads, named_inside (same ▸ heads), same, rest]
    | false => rw [named_outside heads, named_outside (same ▸ heads)]
  induction are with
  | empty => exact named_blank
  | last more whole => rw [Text.split_whole whole]
  | feed whole bare more ih =>
    rw [Text.split_line whole]
    exact step rfl ih
  | @pair line rest lines whole more ih =>
    have split : line ++ '\r' :: '\n' :: rest = (line ++ ['\r']) ++ '\n' :: rest := by simp
    have whole' : '\n' ∉ line ++ ['\r'] :=
      List.not_mem_append whole (List.not_mem_cons_of_ne_of_not_mem (by decide) List.not_mem_nil)
    rw [split, Text.split_line whole']
    have blank : ∀ c ∈ ['\r'], Text.isWhiteSpace c = true := fun c mem => by
      rw [List.mem_singleton.mp mem]
      decide
    exact step (Text.trim_append blank line) ih

theorem names_iff {lines paths : List (List Char)} : Names lines paths ↔ named lines = paths := by
  constructor
  · intro names
    induction names with
    | done => rfl
    | outside lines trimmed ends =>
      obtain rfl := Text.trim_eq_iff.mpr trimmed
      exact named_outside (by simpa [← isHeader_iff] using ends) lines
    | directive trimmed directive more ih =>
      obtain rfl := Text.trim_eq_iff.mpr trimmed
      rw [named_inside (isHeader_iff.mpr directive.heads), ofLine_eq_some_iff.mpr directive, ih]
      rfl
    | other trimmed heads plain more ih =>
      obtain rfl := Text.trim_eq_iff.mpr trimmed
      have none : ofLine _ = none := Option.eq_none_iff_forall_ne_some.mpr fun path found =>
        plain path (ofLine_eq_some_iff.mp found)
      rw [named_inside (isHeader_iff.mpr heads), none, ih]
      rfl
  · rintro rfl
    induction lines with
    | nil => exact .done
    | cons line lines ih =>
      have trimmed := Text.trim_eq_iff.mp (rfl : Text.trim line = _)
      cases heads : isHeader (Text.trim line) with
      | false =>
        rw [named_outside heads]
        exact .outside lines trimmed (by simp [← isHeader_iff, heads])
      | true =>
        rw [named_inside heads]
        cases found : ofLine (Text.trim line) with
        | some path => exact .directive trimmed (ofLine_eq_some_iff.mp found) ih
        | none =>
          refine .other trimmed (isHeader_iff.mp heads) (fun path directive => ?_) ih
          rw [ofLine_eq_some_iff.mpr directive] at found
          cases found

theorem paths_eq_named {text : List Char} {lines : List (List Char)}
    (are : Text.Lines text lines) : (paths text).map String.toList = named lines := by
  rw [← named_split are]
  simp [paths, header, named, List.map_filterMap]

theorem paths_congr {text text' : List Char} {lines lines' : List (List Char)}
    (are : Text.Lines text lines) (are' : Text.Lines text' lines') (same : named lines = named lines') :
    paths text = paths text' := by
  rw [← paths_eq_named are, ← paths_eq_named are'] at same
  exact (List.map_inj_right fun _ _ => String.toList_inj.mp).mp same

theorem named_append_outside {line : List Char} (ends : isHeader (Text.trim line) = false)
    (before after : List (List Char)) : named (before ++ line :: after) = named before := by
  induction before with
  | nil => exact named_outside ends after
  | cons first before ih =>
    cases heads : isHeader (Text.trim first) with
    | true => rw [List.cons_append, named_inside heads, named_inside heads, ih]
    | false => rw [List.cons_append, named_outside heads, named_outside heads]

/-- The paths that a text names are those of the directives among the lines of its header, of each
the only one that it names. What stands behind the first other line makes no difference. -/
theorem paths_directives (text : List Char) :
    (∀ found, found = (paths text).map String.toList ↔
      ∃ lines, Text.Lines text lines ∧ Names lines found) ∧
    (∀ inner path path', Directive inner path → Directive inner path' → path = path') ∧
    (∀ text' before line inner after after', Text.Lines text (before ++ line :: after) →
      Text.Lines text' (before ++ line :: after') → Text.Trimmed line inner → ¬ Heads inner →
        paths text' = paths text) := by
  refine ⟨fun found => ⟨?_, ?_⟩, fun inner path path' => Directive.unique, ?_⟩
  · rintro rfl
    obtain ⟨lines, are⟩ := Text.exists_lines text
    exact ⟨lines, are, names_iff.mpr (paths_eq_named are).symm⟩
  · rintro ⟨lines, are, names⟩
    rw [paths_eq_named are, names_iff.mp names]
  · rintro text' before line inner after after' are are' trimmed ends
    obtain rfl := Text.trim_eq_iff.mpr trimmed
    rw [← isHeader_iff, Bool.not_eq_true] at ends
    refine paths_congr are' are ?_
    rw [named_append_outside ends, named_append_outside ends]

def headed : List Char := "/// <reference path=\"a.ts\" />\r\nvar x;\n/// <reference path='b'/>".toList

theorem paths_headed :
    paths headed = ["a.ts"] ∧ paths (headed.take 38) = paths headed ∧
      ∃ lines, Text.Lines headed lines ∧ Names lines ["a.ts".toList] := by
  have first : '\n' ∉ "/// <reference path=\"a.ts\" />".toList := by decide
  have second : '\n' ∉ "var x;".toList := by decide
  have lines : Text.Lines headed ["/// <reference path=\"a.ts\" />".toList, "var x;".toList,
      "/// <reference path='b'/>".toList] :=
    .pair first (.feed second (by decide) (.last (by decide) (by decide)))
  have lines' : Text.Lines (headed.take 38)
      ["/// <reference path=\"a.ts\" />".toList, "var x;".toList] :=
    .pair first (.feed second (by decide) .empty)
  have trimmed : Text.Trimmed "var x;".toList "var x;".toList :=
    Text.trim_eq_iff.mp (by decide)
  have ends : ¬ Heads "var x;".toList := by
    rw [← isHeader_iff]
    decide
  obtain ⟨grammar, -, front⟩ := paths_directives headed
  exact ⟨by decide, front _ [_] _ _ _ [] lines lines' trimmed ends,
    (grammar _).mp (by decide)⟩

end Dartify.Reference
