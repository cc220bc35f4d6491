import Dartify.Proofs.Literal.Standing

/-! Escapes that name a code unit by its number, in four forms. The reader gives an escape its
number, but reads octal digits as text, and takes no half of a pair from between braces. Main
statement: in a literal, two escapes of one unit may stand for each other exactly if the reader heeds
both, or misreads both in the same way. -/
namespace Dartify

open Text

theorem Text.toNat_ofNat {n : Nat} (scalar : n.isValidChar) : (Char.ofNat n).toNat = n := by
  rw [Char.ofNat, dif_pos scalar]
  rfl

/-! ## Units in front of other units -/

namespace Text.Units

/-- A unit outside of pairs parts what stands before it from what stands behind. -/
theorem toChars_append_cons {u : Nat} (high : isHigh u = false) (low : isLow u = false)
    (us vs : List Nat) : toChars (us ++ u :: vs) = toChars us ++ Char.ofNat u :: toChars vs := by
  have plain : single u = Char.ofNat u := if_neg (by simp [high, low])
  fun_induction toChars us with
  | case1 => rw [List.nil_append, toChars_cons high, plain, List.nil_append]
  | case2 w =>
    have alone : isHigh w = true → ∀ v, (u :: vs).head? = some v → isLow v = false := by
      rintro - v first
      cases first
      exact low
    rw [List.singleton_append, toChars_alone alone, toChars_cons high, plain]
    rfl
  | case3 w v us both ih =>
    rw [List.cons_append, List.cons_append, toChars, if_pos both, ih]
    rfl
  | case4 w v us apart ih =>
    rw [List.cons_append, List.cons_append, toChars, if_neg apart]
    rw [List.cons_append] at ih
    rw [ih]
    rfl

theorem toChars_outside {ws : List Nat} (outside : ∀ w ∈ ws, isHigh w = false ∧ isLow w = false)
    (vs : List Nat) : toChars (ws ++ vs) = ws.map Char.ofNat ++ toChars vs := by
  induction ws with
  | nil => rfl
  | cons w ws ih =>
    obtain ⟨high, low⟩ := outside w List.mem_cons_self
    have first := toChars_append_cons high low [] (ws ++ vs)
    rw [ih fun v mem => outside v (List.mem_cons_of_mem w mem)] at first
    exact first

theorem ofNat_eq_u_iff (n : Nat) : Char.ofNat n = 'u' ↔ n = 'u'.toNat := by
  constructor
  · intro same
    by_cases scalar : n.isValidChar
    · rw [← same, toNat_ofNat scalar]
    · rw [Char.ofNat, dif_neg scalar] at same
      exact absurd same (by decide)
  · rintro rfl
    rfl

theorem single_eq_u_iff (n : Nat) : single n = 'u' ↔ n = 'u'.toNat := by
  by_cases surrogate : (isHigh n || isLow n) = true
  · rw [single_of_surrogate surrogate]
    constructor
    · exact fun same => absurd same (by decide)
    · rintro rfl
      exact absurd surrogate (by decide)
  · rw [single, if_neg surrogate]
    exact ofNat_eq_u_iff n

/-- The letter that an escape may be taken for comes of its own unit only. -/
theorem count_toChars (us : List Nat) : (toChars us).count 'u' = us.count 'u'.toNat := by
  fun_induction toChars us with
  | case1 => rfl
  | case2 w => simp only [List.count_cons, List.count_nil, beq_iff_eq, single_eq_u_iff]
  | case3 w v us both ih =>
    obtain ⟨high, low⟩ := Bool.and_eq_true_iff.mp both
    have pair : pair w v ≠ 'u' := by
      intro same
      have code := (ofNat_eq_u_iff _).mp same
      have small : 'u'.toNat = 0x75 := rfl
      omega
    have first : w ≠ 'u'.toNat := by
      rintro rfl
      cases high
    have second : v ≠ 'u'.toNat := by
      rintro rfl
      cases low
    rw [List.count_cons_of_ne pair, List.count_cons_of_ne first, List.count_cons_of_ne second, ih]
  | case4 w v us apart ih =>
    rw [List.count_cons, List.count_cons, ih]
    simp only [beq_iff_eq, single_eq_u_iff]

end Text.Units

namespace Literal

open Syntax

/-! ## Escapes of a unit -/

inductive Form where
  | octal
  /-- Two digits behind `x`. -/
  | short
  /-- Four digits behind `u`. -/
  | long
  /-- Digits in braces behind `u`. -/
  | braced
deriving DecidableEq

def octalValue (c : Char) : Option Nat :=
  if '0' ≤ c && c ≤ '7' then some (c.toNat - '0'.toNat) else none

/-- The number written by octal digits, the most significant first. -/
def readOctal (cs : List Char) : Option Nat := digitsFrom octalValue 8 0 cs

def Form.Names : Form → List Char → Nat → Prop
  | octal, ds, n => ds ≠ [] ∧ ds.length ≤ 3 ∧ readOctal ds = some n ∧ n ≤ 0o377
  | short, ds, n => ds.length = 2 ∧ readHex ds = some n
  | long, ds, n => ds.length = 4 ∧ readHex ds = some n
  | braced, ds, n => ds ≠ [] ∧ readHex ds = some n ∧ n ≤ 0xFFFF

/-- An escape that names a code unit by its number. -/
structure Numeral (n : Nat) where
  form : Form
  digits : List Char
  names : form.Names digits n

namespace Numeral

variable {n : Nat} (e : Numeral n)

/-- What stands behind the backslash. -/
def tail : List Char :=
  match e.form with
  | .octal => e.digits
  | .short => 'x' :: e.digits
  | .long => 'u' :: e.digits
  | .braced => 'u' :: '{' :: e.digits ++ ['}']

def spelling : List Char := '\\' :: e.tail

/-- Whether the reader gives an escape its number, in front of some text. -/
def Heeded (after : List Char) : Prop :=
  match e.form with
  | .octal => e.digits = ['0'] ∧ ∀ d, after.head? = some d → d.isDigit = false
  | .braced => n.isValidChar
  | _ => True

end Numeral

/-! ## How an escape is read -/

theorem octal_cases {c : Char} {v : Nat} (digit : octalValue c = some v) :
    v < 8 ∧ c = Char.ofNat (0x30 + v) := by
  unfold octalValue at digit
  split at digit
  · rename_i within
    obtain ⟨low, high⟩ := Bool.and_eq_true_iff.mp within
    have least : 0x30 ≤ c.toNat := of_decide_eq_true low
    have most : c.toNat ≤ 0x37 := of_decide_eq_true high
    have value : c.toNat - 0x30 = v := Option.some.inj digit
    have code : 0x30 + v = c.toNat := by omega
    refine ⟨by omega, ?_⟩
    rw [code, Char.ofNat_toNat]
  · cases digit

/-- There are eight octal digits. -/
theorem octal_forall {P : Char → Prop} (all : ∀ w : Fin 8, P (Char.ofNat (0x30 + w))) {c : Char}
    {v : Nat} (digit : octalValue c = some v) : P c := by
  obtain ⟨small, rfl⟩ := octal_cases digit
  exact all ⟨v, small⟩

theorem units_octals {ds : List Char} (octal : ∀ d ∈ ds, ∃ v, octalValue d = some v)
    (rest : List Char) :
    units .plain (ds ++ rest) = ds.map Char.toNat ++ units .plain rest := by
  induction ds with
  | nil => rfl
  | cons d ds ih =>
    obtain ⟨v, digit⟩ := octal d List.mem_cons_self
    have ordinary : d ≠ '\\' := octal_forall (P := (· ≠ '\\')) (by decide) digit
    have small : Units.ofChar d = [d.toNat] :=
      octal_forall (P := fun c => Units.ofChar c = [c.toNat]) (by decide) digit
    rw [List.cons_append, units_plain ordinary, small,
      ih fun c mem => octal c (List.mem_cons_of_mem d mem)]
    rfl

theorem units_zero_digit {c : Char} (digit : c.isDigit = true) (rest : List Char) :
    units .zero (c :: rest) = 0x30 :: units .plain (c :: rest) := by
  rw [units, step, if_pos digit, units, step]
  rfl

theorem units_octal {d : Char} {ds after : List Char}
    (octal : ∀ c ∈ d :: ds, ∃ v, octalValue c = some v)
    (goesOn : d = '0' → ∃ c, (ds ++ after).head? = some c ∧ c.isDigit = true) :
    units .escape (d :: ds ++ after) = (d :: ds).map Char.toNat ++ units .plain after := by
  have rest := units_octals (fun c mem => octal c (List.mem_cons_of_mem d mem)) after
  obtain ⟨v, digit⟩ := octal d List.mem_cons_self
  by_cases zero : d = '0'
  · subst zero
    obtain ⟨c, first, counts⟩ := goesOn rfl
    obtain ⟨behind, parts⟩ := List.head?_eq_some_iff.mp first
    change units .zero (ds ++ after) = _
    rw [parts, units_zero_digit counts, ← parts, rest]
    rfl
  · have itself : escaped d = ([d.toNat], .plain) :=
      octal_forall (P := fun c => c ≠ '0' → escaped c = ([c.toNat], .plain)) (by decide) digit zero
    change (escaped d).1 ++ units (escaped d).2 (ds ++ after) = _
    rw [itself, rest]
    rfl

namespace Numeral

variable {n : Nat} (e : Numeral n)

theorem octal_of_form (octal : e.form = .octal) :
    ∃ d ds, e.digits = d :: ds ∧ (∀ c ∈ d :: ds, ∃ v, octalValue c = some v) ∧
      readOctal (d :: ds) = some n ∧ n ≤ 0o377 := by
  have names := e.names
  rw [octal] at names
  obtain ⟨nonempty, -, number, most⟩ := names
  obtain ⟨d, ds, digits⟩ := List.exists_cons_of_ne_nil nonempty
  rw [digits] at number
  exact ⟨d, ds, digits, fun c => exists_digit number, number, most⟩

/-- What is read of an escape: its number, or what it is taken for. -/
inductive Reads (after : List Char) : List Nat → Prop
  | number (heeded : e.Heeded after) : Reads after [n]
  | digits (octal : e.form = .octal) (heedless : ¬ e.Heeded after) :
      Reads after (e.digits.map Char.toNat)
  | letter (braced : e.form = .braced) (half : ¬ n.isValidChar) : Reads after ['u'.toNat]

theorem reads_octal (octal : e.form = .octal) (after : List Char) :
    ∃ us, e.Reads after us ∧ units .escape (e.tail ++ after) = us ++ units .plain after := by
  obtain ⟨d, ds, digits, octals, number, most⟩ := e.octal_of_form octal
  have text : e.tail = d :: ds := by rw [tail, octal, digits]
  have heeded_iff : e.Heeded after ↔
      d :: ds = ['0'] ∧ ∀ c, after.head? = some c → c.isDigit = false := by
    rw [Heeded, octal, digits]
  by_cases heeded : e.Heeded after
  · obtain ⟨zero, ends⟩ := heeded_iff.mp heeded
    refine ⟨[n], .number heeded, ?_⟩
    cases zero
    cases number
    rw [text]
    exact units_zero ends
  · refine ⟨_, .digits octal heeded, ?_⟩
    rw [text, digits]
    apply units_octal octals
    rintro rfl
    cases ds with
    | nil =>
      by_contra none
      apply heeded
      refine heeded_iff.mpr ⟨rfl, fun c first => ?_⟩
      by_contra digit
      exact none ⟨c, first, by simpa using digit⟩
    | cons c ds =>
      obtain ⟨v, digit⟩ := octals c (by simp)
      exact ⟨c, rfl, octal_forall (P := fun c => c.isDigit = true) (by decide) digit⟩

theorem reads_braced (braced : e.form = .braced) (after : List Char) :
    ∃ us, e.Reads after us ∧ units .escape (e.tail ++ after) = us ++ units .plain after := by
  have names := e.names
  rw [braced] at names
  obtain ⟨nonempty, number, most⟩ := names
  have text : units .escape (e.tail ++ after) = units (.braced []) (e.digits ++ '}' :: after) := by
    simp only [tail, braced, List.cons_append, List.append_assoc, List.nil_append]
    rfl
  rw [text, units_braced nonempty number]
  split
  · rename_i scalar
    have small : Units.ofChar (Char.ofNat n) = [n] := by
      rw [Units.ofChar, toNat_ofNat scalar, if_pos (by omega)]
    rw [small]
    exact ⟨[n], .number (by rw [Heeded, braced]; exact scalar), rfl⟩
  · rename_i half
    exact ⟨_, .letter braced half, rfl⟩

theorem reads (after : List Char) :
    ∃ us, e.Reads after us ∧ units .escape (e.tail ++ after) = us ++ units .plain after := by
  have names := e.names
  cases form : e.form with
  | octal => exact e.reads_octal form after
  | short =>
    rw [form] at names
    obtain ⟨two, number⟩ := names
    refine ⟨[n], .number (by rw [Heeded, form]; trivial), ?_⟩
    rw [tail, form]
    exact units_digits two (by decide) number
  | long =>
    rw [form] at names
    obtain ⟨four, number⟩ := names
    refine ⟨[n], .number (by rw [Heeded, form]; trivial), ?_⟩
    rw [tail, form]
    exact units_unicode four number
  | braced => exact e.reads_braced form after

end Numeral

/-! ## Where the reader stands -/

/-- Whether the reader stands between braces. -/
def Mode.inBraces : Mode → Bool
  | braced _ => true
  | _ => false

theorem units_backslash {m : Mode} (clear : m ≠ .escape) (outside : m.inBraces = false)
    (rest : List Char) : units m ('\\' :: rest) = finish m ++ units .escape rest := by
  cases m with
  | escape => exact absurd rfl clear
  | braced ds => cases outside
  | digits letter left value =>
    change Units.ofChar letter ++ [] ++ units .escape rest = _
    rw [List.append_nil]
    rfl
  | _ => rfl

theorem bracedUnits_of_mem {cs : List Char} (mem : '\\' ∈ cs) : bracedUnits cs = ['u'.toNat] := by
  have unread : ∀ ds : List Char, '\\' ∈ ds → readHex ds = none := by
    intro ds mem
    cases number : readHex ds with
    | none => rfl
    | some n =>
      obtain ⟨v, digit⟩ := exists_hexValue number mem
      cases digit
  have nothing : bracedValue cs = none := by
    unfold bracedValue
    split
    · rename_i ds
      split
      · rfl
      · exact unread ds (List.mem_of_ne_of_mem (by decide) mem)
    · split
      · rfl
      · exact unread _ mem
  rw [bracedUnits, nothing]
  rfl

namespace Numeral

variable {n : Nat} (e : Numeral n)

theorem brace_not_mem_tail (form : e.form ≠ .braced) : '}' ∉ e.tail := by
  have names := e.names
  cases given : e.form with
  | octal =>
    obtain ⟨d, ds, digits, octal, -⟩ := e.octal_of_form given
    rw [tail, given, digits]
    intro mem
    obtain ⟨v, digit⟩ := octal '}' mem
    cases digit
  | short =>
    rw [given] at names
    rw [tail, given]
    exact List.not_mem_cons_of_ne_of_not_mem (by decide) (brace_not_mem names.2)
  | long =>
    rw [given] at names
    rw [tail, given]
    exact List.not_mem_cons_of_ne_of_not_mem (by decide) (brace_not_mem names.2)
  | braced => exact absurd given form

/-- Between braces an escape belongs to the digits, which are none with it. -/
theorem units_inBraces (front after : List Char) :
    units (.braced front) (e.spelling ++ after) =
      'u'.toNat :: units .plain (if e.form = .braced then after else behindBrace after) := by
  have behind : behindBrace (e.spelling ++ after) =
      if e.form = .braced then after else behindBrace after := by
    split
    · rename_i form
      have names := e.names
      rw [form] at names
      have inner : '}' ∉ '\\' :: 'u' :: '{' :: e.digits := by simp [brace_not_mem names.2.1]
      have text : e.spelling ++ after = ('\\' :: 'u' :: '{' :: e.digits) ++ '}' :: after := by
        simp [spelling, tail, form]
      rw [text, behindBrace_append inner]
      rfl
    · rename_i form
      have inner : '}' ∉ e.spelling :=
        List.not_mem_cons_of_ne_of_not_mem (by decide) (e.brace_not_mem_tail form)
      exact behindBrace_append inner after
  have backslash : '\\' ∈ front.reverse ++ (e.spelling ++ after).takeWhile (· ≠ '}') := by
    simp [spelling]
  rw [units_braces, bracedUnits_of_mem backslash, behind]
  rfl

theorem scalar_of_octal (octal : e.form = .octal) : n.isValidChar := by
  obtain ⟨d, ds, -, -, -, most⟩ := e.octal_of_form octal
  exact Or.inl (by omega)

/-! ## Telling readings apart -/

variable {e}

theorem toChars_digits (octal : e.form = .octal) (us vs : List Nat) :
    Units.toChars (us ++ (e.digits.map Char.toNat ++ vs)) =
      Units.toChars us ++ (e.digits ++ Units.toChars vs) := by
  obtain ⟨d, ds, digits, octal, -⟩ := e.octal_of_form octal
  have outside : ∀ c ∈ d :: ds, Units.isHigh c.toNat = false ∧ Units.isLow c.toNat = false := by
    intro c mem
    obtain ⟨v, digit⟩ := octal c mem
    exact octal_forall
      (P := fun c => Units.isHigh c.toNat = false ∧ Units.isLow c.toNat = false) (by decide) digit
  have rest : Units.toChars (ds.map Char.toNat ++ vs) = ds ++ Units.toChars vs := by
    rw [Units.toChars_outside]
    · simp [Function.comp_def]
    · intro w mem
      obtain ⟨c, listed, rfl⟩ := List.mem_map.mp mem
      exact outside c (List.mem_cons_of_mem d listed)
  obtain ⟨high, low⟩ := outside d List.mem_cons_self
  rw [digits, List.map_cons, List.cons_append, Units.toChars_append_cons high low, rest,
    Char.ofNat_toNat]
  rfl

theorem digits_differ (octal : e.form = .octal) (us vs : List Nat) :
    Units.toChars (us ++ (e.digits.map Char.toNat ++ vs)) ≠ Units.toChars (us ++ ([n] ++ vs)) := by
  intro same
  rw [toChars_digits octal] at same
  obtain ⟨d, ds, digits, octal, number, most⟩ := e.octal_of_form octal
  have high : Units.isHigh n = false := by simp [Units.isHigh]; omega
  have low : Units.isLow n = false := by simp [Units.isLow]; omega
  rw [List.singleton_append, Units.toChars_append_cons high low, digits] at same
  have single : d :: ds = [Char.ofNat n] :=
    List.append_cancel_right (List.append_cancel_left same)
  cases single
  obtain ⟨v, digit⟩ := octal _ List.mem_cons_self
  have value : n = v := by simpa [readOctal, digitsFrom, digit] using number.symm
  subst value
  obtain ⟨small, code⟩ := octal_cases digit
  have codes := congrArg Char.toNat code
  rw [toNat_ofNat (Or.inl (by omega)), toNat_ofNat (Or.inl (by omega))] at codes
  omega

theorem half_differs (half : ¬ n.isValidChar) (us vs : List Nat) :
    Units.toChars (us ++ (['u'.toNat] ++ vs)) ≠ Units.toChars (us ++ ([n] ++ vs)) := by
  intro same
  have other : n ≠ 'u'.toNat := by
    rintro rfl
    exact half (by decide)
  have counts := congrArg (List.count 'u') same
  rw [Units.count_toChars, Units.count_toChars] at counts
  simp [List.count_cons] at counts
  exact other counts

theorem heeded_iff_of_braced (form : e.form = .braced) (after : List Char) :
    e.Heeded after ↔ n.isValidChar := by
  rw [Heeded, form]

theorem Reads.eq_of_heeded {after : List Char} {us : List Nat} (read : e.Reads after us)
    (heeded : e.Heeded after) : us = [n] := by
  cases read with
  | number => rfl
  | digits octal heedless => exact absurd heeded heedless
  | letter form half => exact absurd ((heeded_iff_of_braced form after).mp heeded) half

/-- What an escape is taken for differs from its unit in any surroundings. -/
theorem Reads.differs {after : List Char} {us : List Nat} (read : e.Reads after us)
    (heedless : ¬ e.Heeded after) (front back : List Nat) :
    Units.toChars (front ++ (us ++ back)) ≠ Units.toChars (front ++ ([n] ++ back)) := by
  cases read with
  | number heeded => exact absurd heeded heedless
  | digits octal => exact digits_differ octal front back
  | letter form half => exact half_differs half front back

/-- Of one unit, no escape in braces is misread where octal digits are. -/
theorem Reads.eq_iff {e' : Numeral n} {after : List Char} {us us' : List Nat}
    (read : e.Reads after us) (read' : e'.Reads after us') (heedless : ¬ e.Heeded after)
    (heedless' : ¬ e'.Heeded after) (other : e.spelling ≠ e'.spelling) (front back : List Nat) :
    Units.toChars (front ++ (us' ++ back)) = Units.toChars (front ++ (us ++ back)) ↔
      e.form = .braced ∧ e'.form = .braced := by
  cases read with
  | number heeded => exact absurd heeded heedless
  | digits octal =>
    cases read' with
    | number heeded' => exact absurd heeded' heedless'
    | digits octal' =>
      apply iff_of_false
      · intro same
        apply other
        rw [toChars_digits octal', toChars_digits octal] at same
        have digits : e'.digits = e.digits :=
          List.append_cancel_right (List.append_cancel_left same)
        rw [spelling, spelling, tail, tail, octal, octal', digits]
      · rintro ⟨form, -⟩
        rw [octal] at form
        cases form
    | letter form' half => exact absurd (e.scalar_of_octal octal) half
  | letter form half =>
    cases read' with
    | number heeded' => exact absurd heeded' heedless'
    | digits octal' => exact absurd (e'.scalar_of_octal octal') half
    | letter form' => exact iff_of_true rfl ⟨form, form'⟩

/-- Two readings of one unit differ in any surroundings, unless both are its number or both the
letter of their escapes. -/
theorem toChars_respelled_iff {e' : Numeral n} {after : List Char} {us us' : List Nat}
    (read : e.Reads after us) (read' : e'.Reads after us') (other : e.spelling ≠ e'.spelling)
    (front back : List Nat) :
    Units.toChars (front ++ (us' ++ back)) = Units.toChars (front ++ (us ++ back)) ↔
      (e.form = .braced ∧ e'.form = .braced) ∨ (e.Heeded after ∧ e'.Heeded after) := by
  have alike : e.form = .braced ∧ e'.form = .braced → (e.Heeded after ↔ e'.Heeded after) := by
    rintro ⟨form, form'⟩
    rw [heeded_iff_of_braced form, heeded_iff_of_braced form']
  by_cases heeded : e.Heeded after
  · have unit := read.eq_of_heeded heeded
    by_cases heeded' : e'.Heeded after
    · rw [unit, read'.eq_of_heeded heeded']
      exact iff_of_true rfl (Or.inr ⟨heeded, heeded'⟩)
    · rw [unit]
      apply iff_of_false (read'.differs heeded' front back)
      rintro (both | ⟨-, given⟩)
      · exact heeded' ((alike both).mp heeded)
      · exact heeded' given
  · rw [or_iff_left fun both => heeded both.1]
    by_cases heeded' : e'.Heeded after
    · rw [read'.eq_of_heeded heeded']
      apply iff_of_false (read.differs heeded front back).symm
      exact fun both => heeded ((alike both).mpr heeded')
    · exact read.eq_iff read' heeded heeded' other front back

end Numeral

/-- Between braces only the end of the braces tells two escapes apart. -/
theorem toChars_inBraces_iff {n : Nat} (e e' : Numeral n) (ds : List Char) (front : List Nat)
    (after : List Char) :
    Units.toChars (front ++ units (.braced ds) (e'.spelling ++ after)) =
        Units.toChars (front ++ units (.braced ds) (e.spelling ++ after)) ↔
      (e.form = .braced ↔ e'.form = .braced) ∨
        Units.toChars (units .plain (behindBrace after)) = Units.toChars (units .plain after) := by
  have letter (vs : List Nat) :
      Units.toChars (front ++ 'u'.toNat :: vs) = Units.toChars front ++ 'u' :: Units.toChars vs :=
    Units.toChars_append_cons rfl rfl front vs
  rw [e.units_inBraces, e'.units_inBraces, letter, letter, List.append_cancel_left_eq,
    List.cons.injEq, and_iff_right rfl]
  by_cases form : e.form = .braced <;> by_cases form' : e'.form = .braced
  · simp [form, form']
  · simp [form, form']
  · simp only [form, form', if_true, if_false, false_iff, not_true, false_or]
    exact eq_comm
  · simp [form, form']

/-- Outside of braces the reader begins each escape anew. -/
theorem toChars_outside_iff {n : Nat} (e e' : Numeral n) {m : Mode} (clear : m ≠ .escape)
    (outside : m.inBraces = false) (front : List Nat) (after : List Char) :
    Units.toChars (front ++ units m (e'.spelling ++ after)) =
        Units.toChars (front ++ units m (e.spelling ++ after)) ↔
      e.spelling = e'.spelling ∨ (e.form = .braced ∧ e'.form = .braced) ∨
        (e.Heeded after ∧ e'.Heeded after) := by
  by_cases same : e.spelling = e'.spelling
  · rw [same]
    exact iff_of_true rfl (Or.inl rfl)
  · obtain ⟨us, read, behind⟩ := e.reads after
    obtain ⟨us', read', behind'⟩ := e'.reads after
    have begins (x : Numeral n) :
        units m (x.spelling ++ after) = finish m ++ units .escape (x.tail ++ after) :=
      units_backslash clear outside (x.tail ++ after)
    have apart := Numeral.toChars_respelled_iff read read' same (front ++ finish m)
      (units .plain after)
    rw [begins e, begins e', behind, behind', or_iff_right same]
    simpa only [List.append_assoc] using apart

/-- In a literal, an escape may stand for another of the same unit exactly if the reader heeds both,
or neither is heeded and both are written alike or in braces. Where the reader stands between braces,
no escape is heeded, and only the end of the braces tells two of them apart. -/
theorem valueOf_respelled_iff {n : Nat} (e e' : Numeral n) {quote : Char} {before after : List Char}
    (delimiter : quote = '"' ∨ quote = '\'')
    (met : Lexical.Leaves (Lexical.stringPart quote) (before ++ (e.spelling ++ (after ++ [quote])))
      (e.spelling ++ (after ++ [quote]))) :
    valueOf (quoted quote (before ++ (e'.spelling ++ after))) =
        valueOf (quoted quote (before ++ (e.spelling ++ after))) ↔
      if (Mode.plain.behind before).inBraces then
        (e.form = .braced ↔ e'.form = .braced) ∨
          valueOf (quoted quote (behindBrace after)) = valueOf (quoted quote after)
      else
        e.spelling = e'.spelling ∨ (e.form = .braced ∧ e'.form = .braced) ∨
          (e.Heeded after ∧ e'.Heeded after) := by
  have clear : Mode.plain.behind before ≠ .escape := behind_ne_escape_of_leaves met
  have text (x : Numeral n) := units_append .plain before (x.spelling ++ after)
  simp only [valueOf_quoted delimiter, String.ofList_inj]
  rw [text e, text e']
  generalize Mode.plain.complete before = front
  generalize Mode.plain.behind before = m at clear
  split
  · rename_i inside
    cases m with
    | braced ds => exact toChars_inBraces_iff e e' ds front after
    | _ => cases inside
  · rename_i outside
    exact toChars_outside_iff e e' clear (by simpa using outside) front after

/-- The first half of a pair, and the same in braces. -/
def longHalf : Numeral 0xD83D := ⟨.long, ['D', '8', '3', 'D'], rfl, rfl⟩

def bracedHalf : Numeral 0xD83D := ⟨.braced, ['D', '8', '3', 'D'], by decide, rfl, by decide⟩

/-- A pair falls apart when its first half is written in braces. -/
theorem valueOf_bracedHalf :
    valueOf (quoted '"' (longHalf.spelling ++ "\\uDE00".toList)) = "😀" ∧
      valueOf (quoted '"' (bracedHalf.spelling ++ "\\uDE00".toList)) = "u\ufffd" := by
  decide +kernel

def shortAccent : Numeral 0xE9 := ⟨.short, ['e', '9'], rfl, rfl⟩

def bracedAccent : Numeral 0xE9 :=
  ⟨.braced, ['0', '0', '0', 'E', '9'], by decide, rfl, by decide⟩

theorem valueOf_bracedAccent :
    Lexical.Leaves (Lexical.stringPart '"') "a\\xe91\"".toList "\\xe91\"".toList ∧
      valueOf "\"a\\u\x7b000E9\x7d1\"" = valueOf "\"a\\xe91\"" := by
  have met : Lexical.Leaves (Lexical.stringPart '"')
      (['a'] ++ (shortAccent.spelling ++ (['1'] ++ ['"']))) (shortAccent.spelling ++ (['1'] ++ ['"'])) :=
    .more rfl (by decide) (.all _)
  refine ⟨met, (valueOf_respelled_iff shortAccent bracedAccent (Or.inl rfl) met).mpr ?_⟩
  exact Or.inr (Or.inr ⟨trivial, Or.inl (by decide)⟩)

/-- Octal digits are no escape to the reader, but for a null that no digit follows. -/
example : valueOf "\"\\101\\0\\08\"" = "101\x0008" := by decide +kernel

end Literal

end Dartify
