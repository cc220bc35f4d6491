import Dartify.Dart.Spelling
import Dartify.Proofs.Literal.Digits
import Mathlib.Logic.Function.Basic

/-! Writing a string literal and reading it. Both sides treat a text character by character, so a
law for one character in front of any rest carries over to texts: what is written for a character
completes exactly the units of that character and leaves the reader outside every escape. Main
statement: reading the literal of a value gives the value. -/
namespace Dartify

/-! ## Code units -/

namespace Text.Units

theorem single_of_scalar {n : Nat} (scalar : n.isValidChar) : single n = Char.ofNat n := by
  have outside : ¬ (isHigh n || isLow n) = true := by
    unfold Nat.isValidChar at scalar
    simp only [isHigh, isLow, Bool.or_eq_true, Bool.and_eq_true, decide_eq_true_eq]
    omega
  exact if_neg outside

/-- A unit that is no first half of a pair stands for itself. -/
theorem toChars_cons {u : Nat} (single' : isHigh u = false) (us : List Nat) :
    toChars (u :: us) = single u :: toChars us := by
  cases us with
  | nil => rfl
  | cons v us => simp [toChars, single']

/-- The two halves of a character make it again. -/
theorem pair_halves {n : Nat} (low : 0x10000 ≤ n) :
    pair (0xD800 + (n - 0x10000) / 0x400) (0xDC00 + (n - 0x10000) % 0x400) = Char.ofNat n := by
  have whole : 0x10000 + (0xD800 + (n - 0x10000) / 0x400 - 0xD800) * 0x400 +
      (0xDC00 + (n - 0x10000) % 0x400 - 0xDC00) = n := by omega
  rw [pair, whole]

theorem toChars_ofChar_append (c : Char) (us : List Nat) :
    toChars (ofChar c ++ us) = c :: toChars us := by
  have scalar : c.toNat.isValidChar := c.valid
  by_cases small : c.toNat < 0x10000
  · have outside : isHigh c.toNat = false := by
      unfold Nat.isValidChar at scalar
      simp only [isHigh, Bool.and_eq_false_iff, decide_eq_false_iff_not]
      omega
    rw [ofChar, if_pos small, List.singleton_append, toChars_cons outside,
      single_of_scalar scalar, Char.ofNat_toNat]
  · have bound : c.toNat < 0x110000 := by
      unfold Nat.isValidChar at scalar
      omega
    have high : isHigh (0xD800 + (c.toNat - 0x10000) / 0x400) = true := by
      simp only [isHigh, Bool.and_eq_true, decide_eq_true_eq]
      omega
    have low : isLow (0xDC00 + (c.toNat - 0x10000) % 0x400) = true := by
      simp only [isLow, Bool.and_eq_true, decide_eq_true_eq]
      omega
    rw [ofChar, if_neg small]
    simp only [List.cons_append, List.nil_append, toChars, high, low, Bool.and_self, if_true]
    rw [pair_halves (by omega), Char.ofNat_toNat]

theorem toChars_ofChars (cs : List Char) : toChars (ofChars cs) = cs := by
  induction cs with
  | nil => rfl
  | cons c cs ih =>
    have rest : toChars (cs.flatMap ofChar) = cs := ih
    rw [ofChars, List.flatMap_cons, toChars_ofChar_append, rest]

end Text.Units

/-! ## Escapes -/

namespace Literal

open Text

/-- The reader passes from one character to the next behind all that was written for the first. -/
theorem units_plain {c : Char} (ordinary : c ≠ '\\') (rest : List Char) :
    units .plain (c :: rest) = Units.ofChar c ++ units .plain rest := by
  rw [units, step, plain, if_neg ordinary]

/-- A control character is written as the two lower digits of its code. -/
theorem units_unicode_low {n : Nat} (bound : n < 0x100) (rest : List Char) :
    units .plain ('\\' :: 'u' :: '0' :: '0' :: hexDigit (n / 16) :: hexDigit (n % 16) :: rest) =
      n :: units .plain rest := by
  have read : units .unicode (['0', '0', hexDigit (n / 16), hexDigit (n % 16)] ++ rest) =
      n :: units .plain rest :=
    units_unicode rfl (readHex_low bound)
  exact read

/-- What is written for a character is read as its units, whatever follows. -/
theorem units_encodeChar (c : Char) (rest : List Char) :
    units .plain (encodeChar c ++ rest) = Units.ofChar c ++ units .plain rest := by
  unfold encodeChar
  split
  -- The characters with an escape of their own are read by two steps of the reader.
  iterate 8 rfl
  · rename_i backslash _ _ _ _ _ _
    split
    · rename_i control
      have small : Units.ofChar c = [c.toNat] := if_pos (by omega)
      rw [small]
      exact units_unicode_low (by omega) rest
    · exact units_plain backslash rest

theorem units_encoded (value : List Char) :
    units .plain (value.flatMap encodeChar) = Units.ofChars value := by
  induction value with
  | nil => rfl
  | cons c value ih => rw [List.flatMap_cons, units_encodeChar, ih, Units.ofChars, Units.ofChars,
      List.flatMap_cons]

theorem body_encode (value : List Char) : body (encode value) = value.flatMap encodeChar := by
  have quote : '"'.utf8Size = 1 := by decide
  simp [encode, body, quote]

/-- Reading undoes writing, so no two values are written alike. -/
theorem valueOf_stringLiteral :
    (∀ value, valueOf (Dart.stringLiteral value) = value) ∧
      Function.Injective Dart.stringLiteral := by
  have inverse : Function.LeftInverse valueOf Dart.stringLiteral := by
    intro value
    rw [Dart.stringLiteral, valueOf, String.toList_ofList, decode, body_encode, units_encoded,
      Units.toChars_ofChars, String.ofList_toList]
  exact ⟨inverse, inverse.injective⟩

end Literal

end Dartify
