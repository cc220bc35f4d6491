import Dartify.Text.Place

/-! Byte offsets on character boundaries: an offset that can be dropped to splits a text in one
way. -/
namespace Dartify.Text

theorem bytes_eq_zero_iff (cs : List Char) : bytes cs = 0 ↔ cs = [] := by
  cases cs with
  | nil => simp [bytes]
  | cons c cs =>
    have wide := c.utf8Size_pos
    simp only [bytes, reduceCtorEq, iff_false]
    omega

theorem dropBytes_append (front rest : List Char) :
    dropBytes (bytes front) (front ++ rest) = some rest := by
  induction front with
  | nil => cases rest <;> rfl
  | cons c front ih =>
    have wide := c.utf8Size_pos
    obtain ⟨n, size⟩ : ∃ n, bytes (c :: front) = n + 1 :=
      ⟨c.utf8Size + bytes front - 1, by rw [bytes]; omega⟩
    have fits : c.utf8Size ≤ n + 1 := by rw [bytes] at size; omega
    have left : n + 1 - c.utf8Size = bytes front := by rw [bytes] at size; omega
    rw [size, List.cons_append, dropBytes, if_pos fits, left, ih]

theorem dropBytes_eq_some_iff (n : Nat) (text rest : List Char) :
    dropBytes n text = some rest ↔ ∃ front, text = front ++ rest ∧ bytes front = n := by
  constructor
  · intro h
    fun_induction dropBytes n text with
    | case1 text => exact ⟨[], Option.some.inj h, rfl⟩
    | case2 n => cases h
    | case3 n c text fits ih =>
      obtain ⟨front, rfl, size⟩ := ih h
      refine ⟨c :: front, rfl, ?_⟩
      rw [bytes, size]
      omega
    | case4 n c text wide => cases h
  · rintro ⟨front, rfl, rfl⟩
    exact dropBytes_append front rest

theorem dropBytes_further {n : Nat} {text middle rest : List Char}
    (behind : dropBytes n text = some (middle ++ rest)) :
    dropBytes (n + bytes middle) text = some rest := by
  obtain ⟨front, rfl, rfl⟩ := (dropBytes_eq_some_iff _ _ _).mp behind
  rw [← List.append_assoc, ← bytes_append, dropBytes_append]

theorem takeBytes_append (front rest : List Char) :
    takeBytes (bytes front) (front ++ rest) = front := by
  induction front with
  | nil =>
    cases rest with
    | nil => rfl
    | cons c rest =>
      have wide := c.utf8Size_pos
      have narrow : ¬ c.utf8Size ≤ bytes [] := by rw [bytes]; omega
      rw [List.nil_append, takeBytes, if_neg narrow]
  | cons c front ih =>
    have fits : c.utf8Size ≤ bytes (c :: front) := by rw [bytes]; omega
    have left : bytes (c :: front) - c.utf8Size = bytes front := by rw [bytes]; omega
    rw [List.cons_append, takeBytes, if_pos fits, left, ih]

theorem slice_append (front middle rest : List Char) :
    slice (front ++ (middle ++ rest)) (bytes front) (bytes front + bytes middle) = middle := by
  rw [slice, dropBytes_append, Nat.add_sub_cancel_left]
  exact takeBytes_append middle rest

end Dartify.Text
