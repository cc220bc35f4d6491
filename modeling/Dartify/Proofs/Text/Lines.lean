import Mathlib.Data.List.TakeWhile
import Dartify.Text.Blank
import Dartify.Text.Search

/-! The lines of a text, and lines without the white space at their ends, each as a relation beside
the function that computes it. -/
namespace Dartify.Text

/-- The lines of a text. A line feed ends a line, together with one carriage return in front of it,
and behind the last line feed there is a line only if there is more. -/
inductive Lines : List Char → List (List Char) → Prop
  | empty : Lines [] []
  | last {line : List Char} (more : line ≠ []) (whole : '\n' ∉ line) : Lines line [line]
  | feed {line rest : List Char} {lines : List (List Char)} (whole : '\n' ∉ line)
      (bare : line.getLast? ≠ some '\r') (more : Lines rest lines) :
      Lines (line ++ '\n' :: rest) (line :: lines)
  | pair {line rest : List Char} {lines : List (List Char)} (whole : '\n' ∉ line)
      (more : Lines rest lines) : Lines (line ++ '\r' :: '\n' :: rest) (line :: lines)

/-- What is left of a line without the white space at its two ends. -/
structure Trimmed (line inner : List Char) : Prop where
  around : ∃ front back, line = front ++ inner ++ back ∧ ∀ c ∈ front ++ back, isWhiteSpace c = true
  first : ∀ c, inner.head? = some c → isWhiteSpace c = false
  last : ∀ c, inner.getLast? = some c → isWhiteSpace c = false

/-! ## Runs -/

section

variable {p : Char → Bool} {cs rest : List Char}

theorem dropWhile_eq_iff :
    cs.dropWhile p = rest ↔ ∃ front, cs = front ++ rest ∧ (∀ c ∈ front, p c = true) ∧
      ∀ c, rest.head? = some c → p c = false := by
  constructor
  · rintro rfl
    refine ⟨cs.takeWhile p, List.takeWhile_append_dropWhile.symm, fun c => List.mem_takeWhile_imp, ?_⟩
    intro c first
    have stops := List.head?_dropWhile_not p cs
    rwa [first] at stops
  · rintro ⟨front, rfl, runs, stops⟩
    rw [List.dropWhile_append_of_pos runs]
    cases rest with
    | nil => rfl
    | cons c rest => exact List.dropWhile_cons_of_neg (by simp [stops c rfl])

end

/-! ## Lines -/

theorem split_line {line : List Char} (whole : '\n' ∉ line) (rest : List Char) :
    split '\n' (line ++ '\n' :: rest) = line :: split '\n' rest := by
  rw [split_append, split_whole whole, List.singleton_append]

theorem exists_lines (text : List Char) : ∃ lines, Lines text lines := by
  induction size : text.length using Nat.strongRecOn generalizing text with
  | ind n ih =>
    by_cases feed : '\n' ∈ text
    · obtain ⟨line, rest, rfl, whole⟩ := List.eq_append_cons_of_mem feed
      simp only [List.length_append, List.length_cons] at size
      obtain ⟨lines, more⟩ := ih rest.length (by omega) rest rfl
      by_cases bare : line.getLast? = some '\r'
      · obtain ⟨inner, rfl⟩ := List.getLast?_eq_some_iff.mp bare
        have inside : '\n' ∉ inner := fun mem => whole (List.mem_append_left _ mem)
        exact ⟨inner :: lines, by simpa using Lines.pair inside more⟩
      · exact ⟨line :: lines, .feed whole bare more⟩
    · cases text with
      | nil => exact ⟨[], .empty⟩
      | cons c text => exact ⟨[c :: text], .last (List.cons_ne_nil _ _) feed⟩

/-! ## White space at the ends -/

theorem trim_eq_iff {line inner : List Char} : trim line = inner ↔ Trimmed line inner := by
  constructor
  · rintro rfl
    obtain ⟨front, split, blank, first⟩ := dropWhile_eq_iff.mp (rfl : line.dropWhile isWhiteSpace = _)
    obtain ⟨back, split', blank', last⟩ := dropWhile_eq_iff.mp
      (rfl : (line.dropWhile isWhiteSpace).reverse.dropWhile isWhiteSpace = _)
    have middle : line.dropWhile isWhiteSpace = trim line ++ back.reverse := by
      simpa [trim] using congrArg List.reverse split'
    refine ⟨⟨front, back.reverse, by rw [List.append_assoc, ← middle]; exact split, ?_⟩, ?_, ?_⟩
    · intro c mem
      rcases List.mem_append.mp mem with mem | mem
      · exact blank c mem
      · exact blank' c (List.mem_reverse.mp mem)
    · intro c here
      apply first
      rw [middle, List.head?_append, here]
      rfl
    · intro c here
      apply last
      rwa [trim, List.getLast?_reverse] at here
  · rintro ⟨⟨front, back, rfl, blank⟩, first, last⟩
    have before : ∀ c ∈ front, isWhiteSpace c = true := fun c mem =>
      blank c (List.mem_append_left _ mem)
    have behind : ∀ c ∈ back, isWhiteSpace c = true := fun c mem =>
      blank c (List.mem_append_right _ mem)
    cases inner with
    | nil =>
      have gone : (front ++ [] ++ back).dropWhile isWhiteSpace = [] :=
        List.dropWhile_eq_nil_iff.mpr fun c mem => blank c (by simpa using mem)
      rw [trim, gone]
      rfl
    | cons d inner =>
      have left : (front ++ d :: inner ++ back).dropWhile isWhiteSpace = d :: inner ++ back :=
        dropWhile_eq_iff.mpr ⟨front, by simp, before, by simpa using first⟩
      have right : (d :: inner ++ back).reverse.dropWhile isWhiteSpace = (d :: inner).reverse := by
        refine dropWhile_eq_iff.mpr ⟨back.reverse, by simp, by simpa using behind, ?_⟩
        intro c here
        exact last c (by rwa [List.head?_reverse] at here)
      rw [trim, left, right, List.reverse_reverse]

theorem exists_trim_cons {c : Char} (visible : isWhiteSpace c = false) (cs : List Char) :
    ∃ inner, trim (c :: cs) = c :: inner := by
  obtain ⟨⟨front, back, split, around⟩, -, -⟩ := trim_eq_iff.mp (rfl : trim (c :: cs) = _)
  have none : ∀ d ∈ front ++ back, d ≠ c := by
    rintro d mem rfl
    exact absurd (around d mem) (by simp [visible])
  cases front with
  | cons d front => exact absurd (List.cons.inj split).1.symm (none d List.mem_cons_self)
  | nil =>
    cases inner : trim (c :: cs) with
    | nil =>
      rw [inner, List.nil_append, List.nil_append] at split
      exact absurd rfl (none c (by simp [← split]))
    | cons d rest =>
      rw [inner] at split
      exact ⟨rest, by rw [(List.cons.inj split).1]⟩

theorem trim_append {back : List Char} (blank : ∀ c ∈ back, isWhiteSpace c = true)
    (line : List Char) : trim (line ++ back) = trim line := by
  obtain ⟨⟨front, behind, split, around⟩, first, last⟩ := trim_eq_iff.mp (rfl : trim line = _)
  have whole : line ++ back = front ++ trim line ++ (behind ++ back) := by
    rw [← List.append_assoc, ← split]
  refine trim_eq_iff.mpr ⟨⟨front, behind ++ back, whole, ?_⟩, first, last⟩
  intro c mem
  rw [← List.append_assoc] at mem
  exact (List.mem_append.mp mem).elim (around c) (blank c)

end Dartify.Text
