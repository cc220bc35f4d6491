import Dartify.Proofs.Literal.RoundTrip

/-! What Dart makes of a literal that was written for it. Reading starts behind the opening quote
and goes from left to right, and it comes to nothing where the text would interpolate, break off or
hold a control character. Main statement: a written literal is read to its own last quote, whatever
stands behind it, and its value is the one that it was written for. -/
namespace Dartify

open Text

namespace Dart

/-- The unit that a letter stands for behind a backslash, and else the units of the character. -/
def escapeUnits (c : Char) : List Nat :=
  match c with
  | 'b' => [0x08]
  | 'f' => [0x0C]
  | 'n' => [0x0A]
  | 'r' => [0x0D]
  | 't' => [0x09]
  | c => Units.ofChar c

/-- The code units of a literal and the text behind it. A backslash takes the next character with
it, and behind `\u` four digits. -/
def readString : List Char → Option (List Nat × List Char)
  | [] => none
  | '"' :: cs => some ([], cs)
  | '\\' :: 'u' :: a :: b :: c :: d :: cs => do
    let unit ← readHex [a, b, c, d]
    let (units, rest) ← readString cs
    some (unit :: units, rest)
  | '\\' :: 'u' :: _ => none
  | '\\' :: c :: cs =>
    if c.toNat < 0x20 then none
    else (readString cs).map fun (units, rest) => (escapeUnits c ++ units, rest)
  | c :: cs =>
    if c.toNat < 0x20 ∨ c = '\\' ∨ c = '$' then none
    else (readString cs).map fun (units, rest) => (Units.ofChar c ++ units, rest)

theorem readString_bare {c : Char} (quote : c ≠ '"') (backslash : c ≠ '\\') (dollar : c ≠ '$')
    (printable : ¬ c.toNat < 0x20) (rest : List Char) :
    readString (c :: rest) =
      (readString rest).map fun (units, rest) => (Units.ofChar c ++ units, rest) := by
  have bare : ¬ (c.toNat < 0x20 ∨ c = '\\' ∨ c = '$') := by simp [printable, backslash, dollar]
  rw [readString.eq_6]
  · exact if_neg bare
  · exact quote
  · simp [backslash]
  · simp [backslash]
  · simp [backslash]

/-- A control character is written as the two lower digits of its code. -/
theorem readString_control {n : Nat} (bound : n < 0x20) (rest : List Char) :
    readString ('\\' :: 'u' :: '0' :: '0' :: hexDigit (n / 16) :: hexDigit (n % 16) :: rest) =
      (readString rest).map fun (units, rest) => (n :: units, rest) := by
  have number := Literal.readHex_low (Nat.lt_trans bound (by decide : 0x20 < 0x100))
  rw [readString, number]
  cases readString rest <;> rfl

/-- What is written for a character adds its units to what is read behind it. -/
theorem readString_encodeChar (c : Char) (rest : List Char) :
    readString (Literal.encodeChar c ++ rest) =
      (readString rest).map fun (units, rest) => (Units.ofChar c ++ units, rest) := by
  unfold Literal.encodeChar
  split
  -- The characters with an escape of their own come first.
  iterate 8 rfl
  · rename_i quote backslash dollar _ _ _ _ _
    split
    · rename_i control
      have small : Units.ofChar c = [c.toNat] := if_pos (by omega)
      rw [small]
      exact readString_control control rest
    · rename_i printable
      exact readString_bare quote backslash dollar printable rest

theorem readString_encoded (value rest : List Char) :
    readString (value.flatMap Literal.encodeChar ++ '"' :: rest) =
      some (Units.ofChars value, rest) := by
  induction value with
  | nil => rfl
  | cons c value ih =>
    rw [List.flatMap_cons, List.append_assoc, readString_encodeChar, ih]
    rfl

/-! ## Dollars last -/

def escapeDollar (c : Char) : List Char := if c = '$' then ['\\', '$'] else [c]

/-- The escapes of JSON, which leaves a dollar sign as it is. -/
def jsonChar (c : Char) : List Char := if c = '$' then [c] else Literal.encodeChar c

theorem hexDigit_ne_dollar {n : Nat} (bound : n < 16) : hexDigit n ≠ '$' := by
  have all : ∀ d : Fin 16, hexDigit d ≠ '$' := by decide
  exact all ⟨n, bound⟩

theorem dollar_not_mem_encodeChar {c : Char} (other : c ≠ '$') :
    '$' ∉ Literal.encodeChar c := by
  unfold Literal.encodeChar
  split
  iterate 2 decide
  · exact absurd rfl other
  iterate 5 decide
  · split
    · rename_i control
      have first := (hexDigit_ne_dollar (n := c.toNat / 16) (by omega)).symm
      have second := (hexDigit_ne_dollar (n := c.toNat % 16) (by omega)).symm
      simp [first, second]
    · simpa using other.symm

theorem flatMap_escapeDollar {cs : List Char} (none : '$' ∉ cs) : cs.flatMap escapeDollar = cs := by
  induction cs with
  | nil => rfl
  | cons c cs ih =>
    have other : c ≠ '$' := (List.ne_of_not_mem_cons none).symm
    rw [List.flatMap_cons, ih (List.not_mem_of_not_mem_cons none), escapeDollar, if_neg other]
    rfl

theorem flatMap_jsonChar (c : Char) :
    (jsonChar c).flatMap escapeDollar = Literal.encodeChar c := by
  unfold jsonChar
  split
  · rename_i dollar
    subst dollar
    rfl
  · rename_i other
    exact flatMap_escapeDollar (dollar_not_mem_encodeChar other)

/-- The dollar signs of a literal may as well be escaped when all else is written: no escape of
JSON holds one. -/
theorem encode_eq_escapeDollar (value : List Char) :
    Literal.encode value = ('"' :: value.flatMap jsonChar ++ ['"']).flatMap escapeDollar := by
  have quoted : ('"' :: value.flatMap jsonChar ++ ['"']).flatMap escapeDollar =
      '"' :: (value.flatMap jsonChar).flatMap escapeDollar ++ ['"'] := by
    simp [escapeDollar]
  rw [quoted, List.flatMap_assoc, Literal.encode]
  simp only [flatMap_jsonChar]

/-- A written literal stands between quotes, and reading it ends at the last of them with the units
of its value. -/
theorem stringLiteral_inert (value : String) :
    ∃ body, (stringLiteral value).toList = '"' :: body ++ ['"'] ∧
      ∀ rest, readString (body ++ '"' :: rest) = some (Units.ofChars value.toList, rest) := by
  refine ⟨value.toList.flatMap Literal.encodeChar, ?_, ?_⟩
  · rw [stringLiteral, String.toList_ofList]
    rfl
  · exact readString_encoded value.toList

end Dart

end Dartify
