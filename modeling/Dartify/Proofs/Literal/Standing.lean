import Mathlib.Data.List.TakeWhile
import Dartify.Proofs.Literal.Denotation
import Dartify.Proofs.Syntax.Gaps

/-! Where the reader stands inside a literal. The lexical grammar takes a string apart into
characters, escapes and, behind a line break, comments; the reader of its value knows of no comments.
Main statement: where the grammar comes to a backslash between two parts, the reader never stands
behind a backslash of its own, so it takes this one for the beginning of an escape or for a
character between braces. -/
namespace Dartify

open Text

namespace Literal

/-! ## Reading in two stretches -/

namespace Mode

/-- Where the reader stands behind a text. -/
def behind (m : Mode) (cs : List Char) : Mode := cs.foldl (fun m c => (step m c).2) m

/-- The units that are complete behind a text. -/
def complete : Mode → List Char → List Nat
  | _, [] => []
  | m, c :: cs => (step m c).1 ++ complete (step m c).2 cs

theorem behind_append (m : Mode) (first rest : List Char) :
    m.behind (first ++ rest) = (m.behind first).behind rest :=
  List.foldl_append

end Mode

theorem units_append (m : Mode) (first rest : List Char) :
    units m (first ++ rest) = m.complete first ++ units (m.behind first) rest := by
  induction first generalizing m with
  | nil => rfl
  | cons c first ih =>
    rw [List.cons_append, units, ih, Mode.complete, List.append_assoc]
    rfl

/-! ## Parts of the grammar -/

end Literal

/-- A run of parts leaves a rest of the text. -/
inductive Syntax.Lexical.Leaves (part : List Char → Nat) : List Char → List Char → Prop
  | all (cs : List Char) : Leaves part cs cs
  | more {first behind rest : List Char} (taken : part (first ++ behind) = first.length)
      (nonempty : first ≠ []) (left : Leaves part behind rest) : Leaves part (first ++ behind) rest

namespace Literal

open Syntax Lexical

/-! ## Backslashes -/

theorem step_ne_escape (m : Mode) {c : Char} (other : c ≠ '\\') : (step m c).2 ≠ .escape := by
  have outside : (plain c).2 ≠ .escape := by simp [plain, other]
  have counted (letter : Char) (left value : Nat) : (digit letter left value c).2 ≠ .escape := by
    unfold digit
    split
    · split
      all_goals simp
    · exact outside
  cases m with
  | plain => exact outside
  | escape =>
    change (escaped c).2 ≠ .escape
    unfold escaped
    split
    all_goals simp
  | zero => exact outside
  | carriage =>
    rw [step]
    split
    · simp
    · exact outside
  | digits letter left value => exact counted letter left value
  | unicode =>
    rw [step]
    split
    · simp
    · exact counted 'u' 4 0
  | braced ds =>
    rw [step]
    split
    all_goals simp

theorem behind_ne_escape {m : Mode} (clear : m ≠ .escape) {cs : List Char} (none : '\\' ∉ cs) :
    m.behind cs ≠ .escape := by
  induction cs generalizing m with
  | nil => exact clear
  | cons c cs ih =>
    apply ih _ (List.not_mem_of_not_mem_cons none)
    exact step_ne_escape m (List.ne_of_not_mem_cons none).symm

/-- Behind a backslash of its own, or between braces, the reader takes any character. -/
theorem behind_pair_ne_escape {m : Mode} (clear : m ≠ .escape) (c : Char) :
    m.behind ['\\', c] ≠ .escape := by
  have any : (escaped c).2 ≠ .escape := by
    unfold escaped
    split
    all_goals simp
  cases m with
  | escape => exact absurd rfl clear
  | braced ds =>
    change (if c = '}' then _ else _ : List Nat × Mode).2 ≠ .escape
    split
    all_goals simp
  | _ => exact any

/-- The reader stands right behind a backslash of its own only where a line ends. -/
def Clear (m : Mode) (rest : List Char) : Prop :=
  m = .escape → ∀ c, rest.head? = some c → isLineBreak c = true

theorem Clear.ne_escape {m : Mode} {rest : List Char} (clear : Clear m ('\\' :: rest)) :
    m ≠ .escape := by
  intro inside
  have ends : isLineBreak '\\' = true := clear inside '\\' rfl
  revert ends
  decide

/-! ## Parts of a string -/

/-- What the reader has to know of a part: it ends with no backslash, or begins with the only
backslash that counts, or reaches to the end of its line. -/
def Whole (first rest : List Char) : Prop :=
  (∃ front c, first = front ++ [c] ∧ c ≠ '\\') ∨
    (∃ c tail, first = '\\' :: c :: tail ∧ '\\' ∉ tail) ∨
      ∀ c, rest.head? = some c → isLineBreak c = true

theorem Clear.behind_part {m : Mode} {first rest : List Char} (clear : Clear m (first ++ rest))
    (whole : Whole first rest) : Clear (m.behind first) rest := by
  rcases whole with ⟨front, c, rfl, other⟩ | ⟨c, tail, rfl, none⟩ | ends
  · intro inside
    rw [Mode.behind_append] at inside
    exact absurd inside (step_ne_escape _ other)
  · intro inside
    have pair : m.behind ['\\', c] ≠ .escape := behind_pair_ne_escape clear.ne_escape c
    exact absurd inside (behind_ne_escape pair none)
  · exact fun _ => ends

theorem all_of_runOf {p : Char → Bool} {cs : List Char} (all : runOf p cs = cs.length) :
    ∀ c ∈ cs, p c = true := by
  have same : cs.takeWhile p = cs := (List.takeWhile_prefix p).eq_of_length all
  rw [← same]
  exact fun c => List.mem_takeWhile_imp

theorem backslash_not_mem {cs : List Char} (hex : ∀ c ∈ cs, isHexDigit c = true) : '\\' ∉ cs := by
  intro mem
  have digit : isHexDigit '\\' = true := hex _ mem
  revert digit
  decide

theorem fixedHex_cases (n : Nat) (cs : List Char) :
    fixedHex n cs = 0 ∨ fixedHex n cs = n ∧ '\\' ∉ cs.take n := by
  unfold fixedHex
  split
  · rename_i all
    have whole : runOf isHexDigit (cs.take n) = (cs.take n).length := by
      have most : runOf isHexDigit (cs.take n) ≤ (cs.take n).length :=
        (List.takeWhile_prefix _).length_le
      have short : (cs.take n).length ≤ n := List.length_take_le n cs
      omega
    exact Or.inr ⟨rfl, backslash_not_mem (all_of_runOf whole)⟩
  · exact Or.inl rfl

theorem bracedHex_cases (cs : List Char) :
    bracedHex cs = 0 ∨ 0 < bracedHex cs ∧ '\\' ∉ cs.take (bracedHex cs) := by
  unfold bracedHex
  split
  · rename_i r
    dsimp only
    split
    · exact Or.inl rfl
    · split
      · rename_i rest closed
        have inner : '\\' ∉ r.take (runOf isHexDigit r) := by
          rw [runOf, ← List.prefix_iff_eq_take.mp (List.takeWhile_prefix _)]
          exact backslash_not_mem fun c => List.mem_takeWhile_imp
        have last : r[runOf isHexDigit r]? = some '}' := by
          rw [← List.head?_drop, closed]
          rfl
        refine Or.inr ⟨Nat.succ_pos _, ?_⟩
        rw [List.take_succ_cons, List.take_add_one, last]
        simp [inner]
      · exact Or.inl rfl
  · exact Or.inl rfl

/-- An escape holds one backslash, or a second one right behind the first. -/
theorem escape_cases (cs : List Char) :
    escape cs = 0 ∨ ∃ c tail, cs.take (escape cs) = '\\' :: c :: tail ∧ '\\' ∉ tail := by
  unfold escape
  split
  · rename_i r
    rcases fixedHex_cases 2 r with none | ⟨two, hex⟩
    · simp [none]
    · exact Or.inr ⟨'x', r.take 2, by simp [two], hex⟩
  · rename_i r
    rcases bracedHex_cases r with none | ⟨positive, hex⟩
    · rcases fixedHex_cases 4 r with none' | ⟨four, hex⟩
      · simp [none, none']
      · exact Or.inr ⟨'u', r.take 4, by simp [none, four], hex⟩
    · obtain ⟨n, some⟩ := Nat.exists_eq_succ_of_ne_zero (Nat.ne_of_gt positive)
      rw [some] at hex
      exact Or.inr ⟨'u', r.take (n + 1), by simp [some], hex⟩
  · rename_i c d tail _ _
    right
    split
    · rename_i ends
      refine ⟨c, [d], rfl, ?_⟩
      simp at ends ⊢
      rintro rfl
      simp at ends
    · exact ⟨c, [], rfl, by simp⟩
  · rename_i c tail _ _ _
    exact Or.inr ⟨c, [], rfl, by simp⟩
  · exact Or.inl rfl

/-- A comment is passed to the end of its line, or to a slash. -/
theorem comment_cases (cs : List Char) :
    lineComment cs + blockComment cs = 0 ∨
      (∀ c, (cs.drop (lineComment cs + blockComment cs)).head? = some c → isLineBreak c = true) ∨
        ∃ front, cs.take (lineComment cs + blockComment cs) = front ++ ['/'] := by
  by_cases none : lineComment cs + blockComment cs = 0
  · exact Or.inl none
  · obtain ⟨body, rest, rfl, length, stands, inner, rfl | rfl⟩ := exists_comment none
    · rw [← length, List.drop_left]
      cases stands with
      | line runs ends => exact Or.inr (Or.inl ends)
    · rw [← length, List.take_left]
      exact Or.inr (Or.inr ⟨'/' :: '*' :: (inner ++ ['*']), by simp⟩)

/-- Line breaks and blanks in front of a comment are passed with it. -/
theorem whole_of_comment {first rest : List Char} {gap n : Nat}
    (comment : lineComment ((first ++ rest).drop gap) + blockComment ((first ++ rest).drop gap) = n)
    (positive : n ≠ 0) (taken : gap + n = first.length) : Whole first rest := by
  have front : (first ++ rest).take first.length = first := List.take_left
  have back : (first ++ rest).drop first.length = rest := List.drop_left
  rw [← taken, ← comment, List.take_add] at front
  rw [← taken, ← comment, ← List.drop_drop] at back
  rcases comment_cases ((first ++ rest).drop gap) with none | ends | ⟨inner, text⟩
  · omega
  · rw [back] at ends
    exact Or.inr (Or.inr ends)
  · rw [text, ← List.append_assoc] at front
    exact Or.inl ⟨_, '/', front.symm, by decide⟩

theorem whole_of_escape {first rest : List Char} (taken : escape (first ++ rest) = first.length)
    (nonempty : first ≠ []) : Whole first rest := by
  rcases escape_cases (first ++ rest) with none | ⟨c, tail, text, none⟩
  · exact absurd (List.length_eq_zero_iff.mp (taken.symm.trans none)) nonempty
  · rw [taken, List.take_left] at text
    exact Or.inr (Or.inl ⟨c, tail, text, none⟩)

theorem whole_of_stringPart {quote : Char} {first rest : List Char}
    (taken : stringPart quote (first ++ rest) = first.length) (nonempty : first ≠ []) :
    Whole first rest := by
  have positive : first.length ≠ 0 := fun none => nonempty (List.length_eq_zero_iff.mp none)
  obtain ⟨c, first', rfl⟩ := List.exists_cons_of_ne_nil nonempty
  by_cases backslash : c = '\\'
  · subst backslash
    exact whole_of_escape taken nonempty
  · rw [List.cons_append, stringPart.eq_2 _ _ _ (by simpa using backslash)] at taken
    split at taken
    · exact absurd taken.symm positive
    · split at taken
      · dsimp only at taken
        rw [Lexical.behind] at taken
        split at taken
        · exact absurd taken.symm positive
        · rename_i some
          exact whole_of_comment rfl some taken
      · have short : first' = [] := by simpa using taken
        exact Or.inl ⟨[], c, by rw [short, List.nil_append], backslash⟩

/-- Where the grammar has passed some parts of a string, the reader stands behind no backslash of its
own, but where a line ends. -/
theorem clear_behind {quote : Char} {cs rest : List Char}
    (left : Leaves (stringPart quote) cs rest) {m : Mode} (clear : Clear m cs) :
    ∃ passed, cs = passed ++ rest ∧ Clear (m.behind passed) rest := by
  induction left generalizing m with
  | all cs => exact ⟨[], rfl, clear⟩
  | @more first middle rest taken nonempty left ih =>
    obtain ⟨passed, rfl, last⟩ := ih (clear.behind_part (whole_of_stringPart taken nonempty))
    refine ⟨first ++ passed, (List.append_assoc ..).symm, ?_⟩
    rw [Mode.behind_append]
    exact last

/-- At a backslash that the grammar comes to between two parts, the reader has none behind it. -/
theorem behind_ne_escape_of_leaves {quote : Char} {before rest : List Char}
    (left : Leaves (stringPart quote) (before ++ '\\' :: rest) ('\\' :: rest)) :
    Mode.plain.behind before ≠ .escape := by
  have clear : Clear .plain (before ++ '\\' :: rest) := nofun
  obtain ⟨passed, parts, last⟩ := clear_behind left clear
  obtain rfl : before = passed := List.append_cancel_right parts
  exact last.ne_escape

end Literal

end Dartify
