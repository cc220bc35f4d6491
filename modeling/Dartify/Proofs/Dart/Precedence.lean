import Mathlib.Logic.Function.Basic
import Dartify.Tree.Operator

/-! How Dart groups names, brackets and binary operators. Main statement: if a shape has the words
of a Dart expression and its operators keep their levels, it is the grouping of that expression,
even where the shape chains comparisons, which Dart does not. -/
namespace Dartify

namespace BinaryOp

theorem ofSpelling?_spelling (op : BinaryOp) : ofSpelling? op.spelling = some op := by
  cases op <;> rfl

theorem spelling_injective : Function.Injective spelling := by
  intro op op' same
  have known := ofSpelling?_spelling op
  rw [same, ofSpelling?_spelling] at known
  exact (Option.some.inj known).symm

end BinaryOp

namespace Dart

/-- The levels in Dart of the binary operators that both languages have; a higher level binds
tighter. -/
def level : BinaryOp → Nat
  | .or => 1
  | .and => 2
  | .eq | .ne => 3
  | .lt | .gt | .le | .ge => 4
  | .bitOr => 5
  | .bitXor => 6
  | .bitAnd => 7
  | .shiftLeft | .shiftRight => 8
  | .add | .sub => 9
  | .mul | .div | .rem => 10
  | _ => 0

def isComparison (op : BinaryOp) : Bool := level op == 3 || level op == 4

def isBitwise (op : BinaryOp) : Bool := 5 ≤ level op && level op ≤ 7

/-- An operator that both languages have. -/
abbrev Operator := {op : BinaryOp // 0 < level op}

/-- The words with a meaning of their own in an expression. -/
def symbols : List String :=
  "(" :: ")" :: (BinaryOp.all.filter (0 < level ·)).map BinaryOp.spelling

abbrev Name := {text : String // text ∉ symbols}

/-- An expression of names, brackets and binary operators. -/
inductive Shape where
  | name (text : Name)
  | brackets (inner : Shape)
  | join (left : Shape) (op : Operator) (right : Shape)
deriving DecidableEq

namespace Shape

def words : Shape → List String
  | name text => [text.val]
  | brackets s => "(" :: s.words ++ [")"]
  | join left op right => left.words ++ op.val.spelling :: right.words

/-- Whether Dart groups words like this where an operator must have at least a given level:
operators group to the left, but comparisons do not group with each other. -/
def isGrouped (n : Nat) : Shape → Bool
  | name _ => true
  | brackets s => s.isGrouped 0
  | join left op right =>
    n ≤ level op.val && left.isGrouped (level op.val + (isComparison op.val).toNat) &&
      right.isGrouped (level op.val + 1)

/-- The operators keep their levels, at least a given one: no operator has one of a lower level in
its operands, nor one of the same level in its right operand, unless both are comparisons. -/
def KeepsLevels (n : Nat) : Shape → Prop
  | name _ => True
  | brackets s => s.KeepsLevels 0
  | join left op right =>
    n ≤ level op.val ∧ left.KeepsLevels (level op.val) ∧
      right.KeepsLevels (level op.val + (!isComparison op.val).toNat)

/-- The operators outside of all brackets. -/
def spine : Shape → List Operator
  | name _ => []
  | brackets _ => []
  | join left op right => left.spine ++ op :: right.spine

variable {s d : Shape} {n m : Nat}

theorem KeepsLevels.mono (h : s.KeepsLevels n) (less : m ≤ n) : s.KeepsLevels m := by
  cases s with
  | name text => trivial
  | brackets s => exact h
  | join left op right => exact ⟨Nat.le_trans less h.1, h.2⟩

theorem keepsLevels_of_isGrouped (grouped : s.isGrouped n = true) : s.KeepsLevels n := by
  induction s generalizing n with
  | name text => trivial
  | brackets s ih => exact ih grouped
  | join left op right ihl ihr =>
    simp only [isGrouped, Bool.and_eq_true, decide_eq_true_eq] at grouped
    obtain ⟨⟨high, groupedLeft⟩, groupedRight⟩ := grouped
    refine ⟨high, (ihl groupedLeft).mono (Nat.le_add_right _ _), (ihr groupedRight).mono ?_⟩
    have bit := Bool.toNat_le (!isComparison op.val)
    omega

theorem KeepsLevels.le (h : s.KeepsLevels n) {op : Operator} (mem : op ∈ s.spine) :
    n ≤ level op.val := by
  induction s generalizing n with
  | name text => cases mem
  | brackets s ih => cases mem
  | join left root right ihl ihr =>
    obtain ⟨high, inLeft, inRight⟩ := h
    rcases List.mem_append.mp mem with mem | mem
    · exact Nat.le_trans high (ihl inLeft mem)
    · rcases List.mem_cons.mp mem with rfl | mem
      · exact high
      · have above := ihr inRight mem
        omega

/-! ## Brackets in words -/

def turn (w : String) : Int := if w = "(" then 1 else if w = ")" then -1 else 0

/-- How many more brackets open in some words than close. -/
def balance : List String → Int
  | [] => 0
  | w :: ws => turn w + balance ws

theorem balance_cons (w : String) (ws : List String) : balance (w :: ws) = turn w + balance ws :=
  rfl

theorem balance_append (ws vs : List String) : balance (ws ++ vs) = balance ws + balance vs := by
  induction ws with
  | nil => exact (Int.zero_add _).symm
  | cons w ws ih => rw [List.cons_append, balance_cons, balance_cons, ih, Int.add_assoc]

theorem turn_name (text : Name) : turn text.val = 0 := by
  obtain ⟨text, free⟩ := text
  simp only [symbols, List.mem_cons, not_or] at free
  rw [turn, if_neg free.1, if_neg free.2.1]

theorem turn_spelling (op : BinaryOp) : turn op.spelling = 0 := by
  cases op <;> rfl

theorem turn_opening : turn "(" = 1 := rfl

theorem balance_words (s : Shape) : balance s.words = 0 := by
  induction s with
  | name text => exact (Int.add_zero _).trans (turn_name text)
  | brackets s ih =>
    rw [words, List.cons_append, balance_cons, balance_append, ih]
    rfl
  | join left op right ihl ihr =>
    rw [words, balance_append, balance_cons, ihl, turn_spelling, ihr]
    rfl

/-- Behind an expression and an operator, as many brackets open as close. -/
theorem balance_behind {left : Shape} {op : BinaryOp} {back : List String}
    (split : s.words = left.words ++ op.spelling :: back) : balance back = 0 := by
  have total := s.balance_words
  rwa [split, balance_append, balance_words, balance_cons, turn_spelling, Int.zero_add,
    Int.zero_add] at total

/-- No bracket closes that was not opened. -/
theorem balance_nonneg {front back : List String} (split : s.words = front ++ back) :
    0 ≤ balance front := by
  induction s generalizing front back with
  | name text =>
    cases front with
    | nil => exact Int.le_refl _
    | cons w ws =>
      obtain ⟨rfl, rest⟩ := List.cons.inj split
      obtain ⟨rfl, -⟩ := List.append_eq_nil_iff.mp rest.symm
      rw [balance_cons, turn_name]
      exact Int.le_refl _
  | brackets s ih =>
    cases front with
    | nil => exact Int.le_refl _
    | cons w ws =>
      obtain ⟨rfl, rest⟩ := List.cons.inj split
      rw [balance_cons, turn_opening]
      rcases List.append_eq_append_iff.mp rest with ⟨last, rfl, closing⟩ | ⟨rest, inner, -⟩
      · -- What is left of the front is the closing bracket, or nothing.
        rw [balance_append, balance_words]
        cases last with
        | nil => decide
        | cons w ws =>
          obtain ⟨rfl, none⟩ := List.cons.inj closing
          obtain ⟨rfl, -⟩ := List.append_eq_nil_iff.mp none.symm
          decide
      · have within := ih inner
        omega
  | join left op right ihl ihr =>
    rcases List.append_eq_append_iff.mp split with ⟨rest, rfl, later⟩ | ⟨rest, inner, -⟩
    · rw [balance_append, balance_words]
      cases rest with
      | nil => exact Int.le_refl _
      | cons w ws =>
        obtain ⟨rfl, inner⟩ := List.cons.inj later
        have within := ihr inner
        rw [balance_cons, turn_spelling]
        omega
    · exact ihl inner

/-- Of two words in a list, one stands behind the other, or in front of it, or they are one. -/
theorem append_cons_cases {α : Type} {front back front' back' : List α} {w w' : α}
    (same : front ++ w :: back = front' ++ w' :: back') :
    (∃ middle, front' = front ++ w :: middle ∧ back = middle ++ w' :: back') ∨
      (front = front' ∧ w = w' ∧ back = back') ∨
      ∃ middle, front = front' ++ w' :: middle ∧ back' = middle ++ w :: back := by
  rcases List.append_eq_append_iff.mp same with ⟨rest, rfl, later⟩ | ⟨rest, rfl, later⟩
  · cases rest with
    | nil =>
      obtain ⟨rfl, rfl⟩ := List.cons.inj later
      exact .inr (.inl ⟨(List.append_nil _).symm, rfl, rfl⟩)
    | cons u middle =>
      obtain ⟨rfl, behind⟩ := List.cons.inj later
      exact .inl ⟨middle, rfl, behind⟩
  · cases rest with
    | nil =>
      obtain ⟨rfl, rfl⟩ := List.cons.inj later
      exact .inr (.inl ⟨List.append_nil _, rfl, rfl⟩)
    | cons u middle =>
      obtain ⟨rfl, behind⟩ := List.cons.inj later
      exact .inr (.inr ⟨middle, rfl, behind⟩)

/-- An operator that stands behind as many closing brackets as opening ones is outside of all
brackets. -/
theorem mem_spine {op : Operator} {front back : List String}
    (split : s.words = front ++ op.val.spelling :: back) (outside : balance front = 0) :
    op ∈ s.spine := by
  induction s generalizing front back with
  | name text =>
    -- A name is no operator.
    have only : front = [] ∧ op.val.spelling = text.val := by
      cases front with
      | nil => exact ⟨rfl, (List.cons.inj split).1.symm⟩
      | cons w ws => simp [words] at split
    obtain ⟨-, same⟩ := only
    refine absurd ?_ text.property
    rw [← same, symbols]
    refine List.mem_cons_of_mem _ (List.mem_cons_of_mem _ (List.mem_map_of_mem ?_))
    exact List.mem_filter.mpr ⟨BinaryOp.mem_all _, decide_eq_true op.property⟩
  | brackets s ih =>
    cases front with
    | nil =>
      have opened := turn_spelling op.val
      rw [← (List.cons.inj split).1] at opened
      cases opened
    | cons w ws =>
      obtain ⟨rfl, rest⟩ := List.cons.inj split
      rw [balance_cons, turn_opening] at outside
      rcases List.append_eq_append_iff.mp rest with ⟨last, rfl, closing⟩ | ⟨rest, inner, -⟩
      · rw [balance_append, balance_words] at outside
        cases last with
        | nil => cases outside
        | cons w ws => simp at closing
      · have within := balance_nonneg inner
        omega
  | join left root right ihl ihr =>
    rw [spine, List.mem_append, List.mem_cons]
    rcases append_cons_cases split with ⟨rest, rfl, inner⟩ | ⟨-, same, -⟩ | ⟨rest, inner, -⟩
    · rw [balance_append, balance_words, balance_cons, turn_spelling, Int.zero_add,
        Int.zero_add] at outside
      exact .inr (.inr (ihr inner outside))
    · exact .inr (.inl (Subtype.ext (BinaryOp.spelling_injective same).symm))
    · exact .inl (ihl inner outside)

/-! ## Shapes with the same words -/

theorem words_brackets_ne_name (s : Shape) (text : Name) :
    (brackets s).words ≠ (name text).words := by
  intro same
  have lengths := congrArg List.length same
  simp [words] at lengths

theorem words_join_ne {left right : Shape} {op : Operator} (flat : s.spine = []) :
    s.words ≠ (join left op right).words := by
  intro same
  have mem := mem_spine same left.balance_words
  rw [flat] at mem
  cases mem

/-- An operator that Dart has in the left operand of another does not have that other in its right
operand. -/
theorem level_lt_of_le {op op' : BinaryOp}
    (above : level op' + (isComparison op').toNat ≤ level op) :
    ¬ level op + (!isComparison op).toNat ≤ level op' := by
  intro below
  have same : level op = level op' := by omega
  have alike : isComparison op = isComparison op' := by rw [isComparison, isComparison, same]
  rw [alike] at below
  cases compared : isComparison op' with
  | true =>
    rw [compared, Bool.toNat_true] at above
    omega
  | false =>
    rw [compared, Bool.not_false, Bool.toNat_true] at below
    omega

/-- Shapes of the same words are the same if one keeps its levels and the other is how Dart groups
the words. -/
theorem eq_of_words_eq (keeps : s.KeepsLevels n) (grouped : d.isGrouped m = true)
    (same : s.words = d.words) : s = d := by
  induction s generalizing d n m with
  | name text =>
    cases d with
    | name text' => exact congrArg name (Subtype.ext (List.cons.inj same).1)
    | brackets d => exact absurd same.symm (words_brackets_ne_name d text)
    | join left op right => exact absurd same (words_join_ne rfl)
  | brackets s ih =>
    cases d with
    | name text => exact absurd same (words_brackets_ne_name s text)
    | brackets d =>
      have inner := List.append_cancel_right (List.cons.inj same).2
      exact congrArg brackets (ih keeps grouped inner)
    | join left op right => exact absurd same (words_join_ne rfl)
  | join left op right ihl ihr =>
    cases d with
    | name text => exact absurd same.symm (words_join_ne rfl)
    | brackets d => exact absurd same.symm (words_join_ne rfl)
    | join left' op' right' =>
      simp only [isGrouped, Bool.and_eq_true, decide_eq_true_eq] at grouped
      obtain ⟨-, keepsLeft, keepsRight⟩ := keeps
      obtain ⟨⟨-, groupedLeft⟩, groupedRight⟩ := grouped
      -- If the roots were two operators, each would bear the other in an operand.
      rcases append_cons_cases same with ⟨middle, inLeft, inRight⟩ | ⟨lefts, ops, rights⟩ |
        ⟨middle, inLeft, inRight⟩
      · have above := (keepsLevels_of_isGrouped groupedLeft).le
          (mem_spine inLeft left.balance_words)
        have below := keepsRight.le (mem_spine inRight (balance_behind inLeft))
        exact absurd below (level_lt_of_le above)
      · obtain rfl := Subtype.ext (BinaryOp.spelling_injective ops)
        rw [ihl keepsLeft groupedLeft lefts, ihr keepsRight groupedRight rights]
      · have above := keepsLeft.le (mem_spine inLeft left'.balance_words)
        have below := (keepsLevels_of_isGrouped groupedRight).le
          (mem_spine inRight (balance_behind inLeft))
        omega

end Shape

end Dart

end Dartify
