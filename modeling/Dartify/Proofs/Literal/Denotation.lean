import Dartify.Proofs.Literal.RoundTrip

/-! The value of a literal by its parts. A body is a sequence of characters and escapes, each of
which stands for some code units; where an escape could go on, the text behind it decides. The units
of the whole are joined to characters only at the end. Main statement: reading a literal that has
such a body gives the characters of its units. -/
namespace Dartify

open Text

/-! ## Characters of units -/

namespace Text.Units

/-- The characters of a list of code units: a high surrogate and a low one right behind it make one
character, and a surrogate without a partner makes the replacement character. -/
inductive Joins : List Nat → List Char → Prop
  | nil : Joins [] []
  | scalar {u : Nat} {us : List Nat} {cs : List Char} (high : isHigh u = false)
      (low : isLow u = false) (more : Joins us cs) : Joins (u :: us) (Char.ofNat u :: cs)
  | pair {u v : Nat} {us : List Nat} {cs : List Char} (high : isHigh u = true)
      (low : isLow v = true) (more : Joins us cs) :
      Joins (u :: v :: us) (Char.ofNat (0x10000 + (u - 0xD800) * 0x400 + (v - 0xDC00)) :: cs)
  | loneHigh {u : Nat} {us : List Nat} {cs : List Char} (high : isHigh u = true)
      (alone : ∀ v, us.head? = some v → isLow v = false) (more : Joins us cs) :
      Joins (u :: us) ('\ufffd' :: cs)
  | loneLow {u : Nat} {us : List Nat} {cs : List Char} (low : isLow u = true)
      (more : Joins us cs) : Joins (u :: us) ('\ufffd' :: cs)

theorem isHigh_eq_false_of_isLow {u : Nat} (low : isLow u = true) : isHigh u = false := by
  simp only [isLow, isHigh, Bool.and_eq_true, decide_eq_true_eq, Bool.and_eq_false_iff,
    decide_eq_false_iff_not] at low ⊢
  omega

/-- A high surrogate with no low one behind it stands for itself. -/
theorem toChars_alone {u : Nat} {us : List Nat}
    (alone : isHigh u = true → ∀ v, us.head? = some v → isLow v = false) :
    toChars (u :: us) = single u :: toChars us := by
  cases us with
  | nil => rfl
  | cons v us =>
    have parted : ¬ (isHigh u && isLow v) = true := by
      intro both
      obtain ⟨high, low⟩ := Bool.and_eq_true_iff.mp both
      rw [alone high v rfl] at low
      cases low
    rw [toChars, if_neg parted]

theorem single_of_surrogate {u : Nat} (surrogate : (isHigh u || isLow u) = true) :
    single u = '\ufffd' :=
  if_pos surrogate

theorem toChars_of_joins {us : List Nat} {cs : List Char} (joins : Joins us cs) :
    toChars us = cs := by
  induction joins with
  | nil => rfl
  | @scalar u us cs high low more ih =>
    have plain : single u = Char.ofNat u := if_neg (by simp [high, low])
    rw [toChars_cons high, ih, plain]
  | @pair u v us cs high low more ih =>
    simp only [toChars, high, low, Bool.and_self, if_true, ih]
    rfl
  | @loneHigh u us cs high alone more ih =>
    rw [toChars_alone fun _ => alone, ih, single_of_surrogate (by simp [high])]
  | @loneLow u us cs low more ih =>
    rw [toChars_cons (isHigh_eq_false_of_isLow low), ih, single_of_surrogate (by simp [low])]

theorem Joins.single {u : Nat} {us : List Nat} {cs : List Char}
    (alone : isHigh u = true → ∀ v, us.head? = some v → isLow v = false) (more : Joins us cs) :
    Joins (u :: us) (single u :: cs) := by
  cases high : isHigh u with
  | true =>
    rw [single_of_surrogate (by simp [high])]
    exact .loneHigh high (alone high) more
  | false =>
    cases low : isLow u with
    | true =>
      rw [single_of_surrogate (by simp [low])]
      exact .loneLow low more
    | false =>
      have plain : Units.single u = Char.ofNat u := if_neg (by simp [high, low])
      rw [plain]
      exact .scalar high low more

theorem joins_toChars (us : List Nat) : Joins us (toChars us) := by
  fun_induction toChars us with
  | case1 => exact .nil
  | case2 u => exact .single (fun _ _ found => nomatch found) .nil
  | case3 u v us both ih =>
    obtain ⟨high, low⟩ := Bool.and_eq_true_iff.mp both
    exact .pair high low ih
  | case4 u v us apart ih =>
    apply Joins.single _ ih
    intro high w first
    cases first
    simpa [high] using apart

theorem joins_iff (us : List Nat) (cs : List Char) : Joins us cs ↔ toChars us = cs := by
  constructor
  · exact toChars_of_joins
  · rintro rfl
    exact joins_toChars us

end Text.Units

namespace Literal

/-! ## Parts of a body -/

/-- The letters that stand for a control character behind a backslash. -/
def namedEscapes : List (Char × Nat) :=
  [('n', 0x0A), ('t', 0x09), ('r', 0x0D), ('b', 0x08), ('f', 0x0C), ('v', 0x0B)]

/-- What a backslash takes out of a text. -/
def lineEnds : List (List Char) := [['\n'], ['\r'], ['\r', '\n'], ['\u2028'], ['\u2029']]

/-- The characters that do not stand for themselves behind a backslash. -/
def escapeChars : List Char := "ntrbfv01234567xu\n\r\u2028\u2029".toList

/-- The body of a literal stands for code units. -/
inductive Denotes : List Char → List Nat → Prop
  | nil : Denotes [] []
  | char {c : Char} {body : List Char} {us : List Nat} (ordinary : c ≠ '\\')
      (more : Denotes body us) : Denotes (c :: body) (Units.ofChar c ++ us)
  | named {c : Char} {u : Nat} {body : List Char} {us : List Nat} (listed : (c, u) ∈ namedEscapes)
      (more : Denotes body us) : Denotes ('\\' :: c :: body) (u :: us)
  | null {body : List Char} {us : List Nat} (ends : ∀ d, body.head? = some d → d.isDigit = false)
      (more : Denotes body us) : Denotes ('\\' :: '0' :: body) (0 :: us)
  | short {ds : List Char} {n : Nat} {body : List Char} {us : List Nat} (two : ds.length = 2)
      (number : readHex ds = some n) (more : Denotes body us) :
      Denotes ('\\' :: 'x' :: (ds ++ body)) (n :: us)
  | long {ds : List Char} {n : Nat} {body : List Char} {us : List Nat} (four : ds.length = 4)
      (number : readHex ds = some n) (more : Denotes body us) :
      Denotes ('\\' :: 'u' :: (ds ++ body)) (n :: us)
  | braced {ds : List Char} {n : Nat} {body : List Char} {us : List Nat} (nonempty : ds ≠ [])
      (number : readHex ds = some n) (scalar : n.isValidChar) (more : Denotes body us) :
      Denotes ('\\' :: 'u' :: '{' :: (ds ++ '}' :: body)) (Units.ofChar (Char.ofNat n) ++ us)
  | continued {lineEnd body : List Char} {us : List Nat} (listed : lineEnd ∈ lineEnds)
      (ends : lineEnd = ['\r'] → body.head? ≠ some '\n') (more : Denotes body us) :
      Denotes ('\\' :: (lineEnd ++ body)) us
  | itself {c : Char} {body : List Char} {us : List Nat} (other : c ∉ escapeChars)
      (more : Denotes body us) : Denotes ('\\' :: c :: body) (Units.ofChar c ++ us)

/-! ## Reading a body -/

theorem units_zero {rest : List Char} (ends : ∀ d, rest.head? = some d → d.isDigit = false) :
    units .zero rest = 0 :: units .plain rest := by
  cases rest with
  | nil => rfl
  | cons c rest =>
    have none : c.isDigit = false := ends c rfl
    simp [units, step, none]

theorem units_carriage {rest : List Char} (ends : rest.head? ≠ some '\n') :
    units .carriage rest = units .plain rest := by
  cases rest with
  | nil => rfl
  | cons c rest =>
    have other : c ≠ '\n' := by simpa using ends
    rw [units, units, step, step, if_neg other]

theorem escaped_itself {c : Char} (other : c ∉ escapeChars) :
    escaped c = (Units.ofChar c, .plain) := by
  unfold escaped
  split
  iterate 13 exact absurd (by decide) other
  rfl

theorem units_lineEnd {lineEnd rest : List Char} (listed : lineEnd ∈ lineEnds)
    (ends : lineEnd = ['\r'] → rest.head? ≠ some '\n') :
    units .escape (lineEnd ++ rest) = units .plain rest := by
  simp only [lineEnds, List.mem_cons, List.not_mem_nil, or_false] at listed
  rcases listed with rfl | rfl | rfl | rfl | rfl
  · rfl
  · exact units_carriage (ends rfl)
  · rfl
  · rfl
  · rfl

theorem units_of_denotes {body : List Char} {us : List Nat} (denotes : Denotes body us) :
    units .plain body = us := by
  induction denotes with
  | nil => rfl
  | char ordinary more ih => rw [units_plain ordinary, ih]
  | @named c u body us listed more ih =>
    have letter : escaped c = ([u], .plain) := by
      simp only [namedEscapes, List.mem_cons, Prod.mk.injEq, List.not_mem_nil, or_false] at listed
      rcases listed with ⟨rfl, rfl⟩ | ⟨rfl, rfl⟩ | ⟨rfl, rfl⟩ | ⟨rfl, rfl⟩ | ⟨rfl, rfl⟩ | ⟨rfl, rfl⟩
      all_goals rfl
    have read : units .plain ('\\' :: c :: body) =
        (escaped c).1 ++ units (escaped c).2 body := rfl
    rw [read, letter, ih]
    rfl
  | null ends more ih =>
    rw [← ih]
    exact units_zero ends
  | short two number more ih =>
    rw [← ih]
    exact units_digits two (by decide) number
  | long four number more ih =>
    rw [← ih]
    exact units_unicode four number
  | @braced ds n body us nonempty number scalar more ih =>
    have read : units (.braced []) (ds ++ '}' :: body) = _ := units_braced nonempty number
    rw [if_pos scalar, ih] at read
    exact read
  | continued listed ends more ih =>
    rw [← ih]
    exact units_lineEnd listed ends
  | @itself c body us other more ih =>
    have read : units .plain ('\\' :: c :: body) =
        (escaped c).1 ++ units (escaped c).2 body := rfl
    rw [read, escaped_itself other, ih]

/-- A literal with its quotes. -/
def quoted (quote : Char) (body : List Char) : String := String.ofList (quote :: body ++ [quote])

theorem valueOf_quoted {quote : Char} (delimiter : quote = '"' ∨ quote = '\'') (inner : List Char) :
    valueOf (quoted quote inner) = String.ofList (Units.toChars (units .plain inner)) := by
  have width : quote.utf8Size = 1 := by
    rcases delimiter with rfl | rfl
    all_goals decide
  have between : body (quote :: inner ++ [quote]) = inner := by simp [body, width]
  rw [valueOf, quoted, String.toList_ofList, decode, between]

/-- A literal whose body stands for code units has the value that these join to, and no other. -/
theorem valueOf_denoted {quote : Char} {body : List Char} {us : List Nat}
    (delimiter : quote = '"' ∨ quote = '\'') (denotes : Denotes body us) (value : String) :
    valueOf (quoted quote body) = value ↔ Units.Joins us value.toList := by
  rw [valueOf_quoted delimiter, units_of_denotes denotes, Units.joins_iff]
  constructor
  · rintro rfl
    exact String.toList_ofList.symm
  · intro joined
    rw [joined, String.ofList_toList]

/-- A line that ends between the halves of a pair does not part them, and a half that is left over
is replaced. -/
theorem valueOf_continuedPair :
    (Denotes "\\uD83D\\\n\\uDE00\\uDE00\\x41".toList [0xD83D, 0xDE00, 0xDE00, 0x41] ∧
      Units.Joins [0xD83D, 0xDE00, 0xDE00, 0x41] "😀\ufffdA".toList) ∧
      valueOf "\"\\uD83D\\\n\\uDE00\\uDE00\\x41\"" = "😀\ufffdA" := by
  have last : Denotes ('\\' :: 'x' :: (['4', '1'] ++ [])) [0x41] := .short rfl rfl .nil
  have low : Denotes ('\\' :: 'u' :: (['D', 'E', '0', '0'] ++ _)) [0xDE00, 0x41] :=
    .long rfl rfl last
  have second : Denotes ('\\' :: 'u' :: (['D', 'E', '0', '0'] ++ _)) [0xDE00, 0xDE00, 0x41] :=
    .long rfl rfl low
  have line : Denotes ('\\' :: (['\n'] ++ _)) [0xDE00, 0xDE00, 0x41] :=
    .continued (by decide) (by decide) second
  have whole : Denotes ('\\' :: 'u' :: (['D', '8', '3', 'D'] ++ _)) _ := .long rfl rfl line
  have joined : Units.Joins [0xD83D, 0xDE00, 0xDE00, 0x41] "😀\ufffdA".toList :=
    .pair rfl rfl (.loneLow rfl (.scalar rfl rfl .nil))
  exact ⟨⟨whole, joined⟩, (valueOf_denoted (Or.inl rfl) whole _).mpr joined⟩

end Literal

end Dartify
