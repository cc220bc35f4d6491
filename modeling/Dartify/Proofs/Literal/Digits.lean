import Dartify.Literal.Decode

/-! The digits of escapes. Main statements: a fixed count of hexadecimal digits, or digits in braces,
are read as the number that they write. -/
namespace Dartify

open Text

theorem Text.hexValue_hexDigit {n : Nat} (bound : n < 16) : hexValue (hexDigit n) = some n := by
  have all : ∀ d : Fin 16, hexValue (hexDigit d) = some d.val := by decide
  exact all ⟨n, bound⟩

namespace Literal

/-- The number of some digits behind digits with a value. -/
def digitsFrom (digit : Char → Option Nat) (base value : Nat) (ds : List Char) : Option Nat :=
  ds.foldl (fun acc c => acc.bind fun n => (digit c).map (n * base + ·)) (some value)

section Digits

variable {digit : Char → Option Nat} {base value n : Nat}

theorem digitsFrom_cons {d : Char} {ds : List Char}
    (number : digitsFrom digit base value (d :: ds) = some n) :
    ∃ v, digit d = some v ∧ digitsFrom digit base (value * base + v) ds = some n := by
  cases first : digit d with
  | some v => exact ⟨v, rfl, by simpa [digitsFrom, first] using number⟩
  | none =>
    have nothing : ∀ cs : List Char,
        cs.foldl (fun acc c => acc.bind fun n => (digit c).map (n * base + ·)) none = none := by
      intro cs
      induction cs with
      | nil => rfl
      | cons c cs ih => exact ih
    have lost : digitsFrom digit base value (d :: ds) = none := by
      simp only [digitsFrom, List.foldl_cons, Option.bind_some, first, Option.map_none]
      exact nothing ds
    rw [lost] at number
    cases number

theorem exists_digit {ds : List Char} (number : digitsFrom digit base value ds = some n)
    {d : Char} (mem : d ∈ ds) : ∃ v, digit d = some v := by
  induction ds generalizing value with
  | nil => cases mem
  | cons c ds ih =>
    obtain ⟨v, first, number⟩ := digitsFrom_cons number
    rcases List.mem_cons.mp mem with rfl | mem
    · exact ⟨v, first⟩
    · exact ih number mem

end Digits

theorem exists_hexValue {ds : List Char} {n : Nat} (number : readHex ds = some n) {d : Char}
    (mem : d ∈ ds) : ∃ v, hexValue d = some v := by
  have whole : digitsFrom hexValue 16 0 ds = some n := number
  exact exists_digit whole mem

/-- Four digits write a number of two. -/
theorem readHex_low {n : Nat} (bound : n < 0x100) :
    readHex ['0', '0', hexDigit (n / 16), hexDigit (n % 16)] = some n := by
  have first : hexValue (hexDigit (n / 16)) = some (n / 16) := hexValue_hexDigit (by omega)
  have second : hexValue (hexDigit (n % 16)) = some (n % 16) := hexValue_hexDigit (by omega)
  have zero : hexValue '0' = some 0 := rfl
  have value : n / 16 * 16 + n % 16 = n := by omega
  simp [readHex, zero, first, second, value]

/-! ## Reading digits -/

/-- As many digits as an escape asks for complete one unit. -/
theorem units_digits {letter : Char} {left value n : Nat} {ds rest : List Char}
    (count : ds.length = left) (positive : 0 < left)
    (number : digitsFrom hexValue 16 value ds = some n) :
    units (.digits letter left value) (ds ++ rest) = n :: units .plain rest := by
  induction ds generalizing left value with
  | nil =>
    cases count
    cases positive
  | cons d ds ih =>
    obtain ⟨v, digit, number⟩ := digitsFrom_cons number
    rw [List.cons_append, units, step, Literal.digit, digit]
    dsimp only
    split
    · -- The last digit.
      rename_i last
      have done : ds = [] := List.length_eq_zero_iff.mp (by simp at count; omega)
      subst done
      cases number
      rfl
    · rename_i more
      rw [List.nil_append]
      apply ih _ _ number
      · simp at count
        omega
      · omega

theorem ne_of_hexValue {c d : Char} {v : Nat} (digit : hexValue c = some v)
    (other : hexValue d = none) : c ≠ d := by
  rintro rfl
  rw [other] at digit
  cases digit

theorem units_unicode {ds rest : List Char} {n : Nat} (four : ds.length = 4)
    (number : readHex ds = some n) : units .unicode (ds ++ rest) = n :: units .plain rest := by
  have whole : units (.digits 'u' 4 0) (ds ++ rest) = n :: units .plain rest :=
    units_digits four (by decide) number
  cases ds with
  | nil => cases four
  | cons d ds =>
    obtain ⟨v, digit⟩ := exists_hexValue number List.mem_cons_self
    have open' : d ≠ '{' := ne_of_hexValue digit rfl
    have same : step .unicode d = step (.digits 'u' 4 0) d := if_neg open'
    rw [← whole, List.cons_append, units, units, same]

/-- The text behind the first closing brace. -/
def behindBrace (cs : List Char) : List Char := (cs.dropWhile (· ≠ '}')).drop 1

theorem units_braces (front cs : List Char) :
    units (.braced front) cs =
      bracedUnits (front.reverse ++ cs.takeWhile (· ≠ '}')) ++ units .plain (behindBrace cs) := by
  induction cs generalizing front with
  | nil => simp [units, finish, behindBrace]
  | cons c cs ih =>
    by_cases closing : c = '}'
    · subst closing
      simp [units, step, behindBrace]
    · rw [units, step, if_neg closing, List.nil_append, ih, List.reverse_cons, List.append_assoc]
      simp [behindBrace, closing]

theorem behindBrace_append {cs : List Char} (inner : '}' ∉ cs) (rest : List Char) :
    behindBrace (cs ++ rest) = behindBrace rest := by
  have all : ∀ c ∈ cs, decide (c ≠ '}') = true := by
    intro c mem
    apply decide_eq_true
    rintro rfl
    exact inner mem
  rw [behindBrace, List.dropWhile_append_of_pos all]
  rfl

theorem bracedValue_of_readHex {ds : List Char} {n : Nat} (nonempty : ds ≠ [])
    (number : readHex ds = some n) : bracedValue ds = some n := by
  cases ds with
  | nil => exact absurd rfl nonempty
  | cons d ds =>
    obtain ⟨v, digit⟩ := exists_hexValue number List.mem_cons_self
    have sign : d ≠ '+' := ne_of_hexValue digit rfl
    rw [bracedValue.eq_2 _ (by simp [sign]), if_neg (by simp), number]

theorem brace_not_mem {ds : List Char} {n : Nat} (number : readHex ds = some n) : '}' ∉ ds := by
  intro mem
  obtain ⟨v, digit⟩ := exists_hexValue number mem
  exact ne_of_hexValue digit rfl rfl

theorem units_braced {ds rest : List Char} {n : Nat} (nonempty : ds ≠ [])
    (number : readHex ds = some n) :
    units (.braced []) (ds ++ '}' :: rest) =
      (if n.isValidChar then Units.ofChar (Char.ofNat n) else Units.ofChar 'u') ++
        units .plain rest := by
  have inner := brace_not_mem number
  have digits : (ds ++ '}' :: rest).takeWhile (· ≠ '}') = ds := by
    rw [List.takeWhile_append_of_pos]
    · simp
    · intro c mem
      apply decide_eq_true
      rintro rfl
      exact inner mem
  have behind : behindBrace (ds ++ '}' :: rest) = rest := by
    rw [behindBrace_append inner]
    simp [behindBrace]
  rw [units_braces, digits, behind, List.reverse_nil, List.nil_append, bracedUnits,
    bracedValue_of_readHex nonempty number]

end Literal

end Dartify
