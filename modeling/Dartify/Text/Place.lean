/-! Positions in a text. All offsets and columns count UTF-8 bytes, and only a line feed ends a
line. -/
namespace Dartify

/-- A point of a text: the bytes before it, the line feeds before it, and the bytes since the
last of them. -/
structure Place where
  offset : Nat
  line : Nat
  column : Nat
deriving DecidableEq, Inhabited

namespace Place

/-- The place before the first character. -/
def origin : Place := ⟨0, 0, 0⟩

/-- The place behind one more character. -/
def next (p : Place) (c : Char) : Place :=
  if c = '\n' then ⟨p.offset + 1, p.line + 1, 0⟩
  else ⟨p.offset + c.utf8Size, p.line, p.column + c.utf8Size⟩

/-- The place behind a run of characters. -/
def after (p : Place) (cs : List Char) : Place := cs.foldl next p

@[simp] theorem after_nil (p : Place) : p.after [] = p := rfl

theorem after_append (p : Place) (as bs : List Char) :
    p.after (as ++ bs) = (p.after as).after bs := List.foldl_append

end Place

namespace Text

/-- The number of bytes of a run of characters. -/
def bytes : List Char → Nat
  | [] => 0
  | c :: cs => c.utf8Size + bytes cs

theorem bytes_append (as bs : List Char) : bytes (as ++ bs) = bytes as + bytes bs := by
  induction as with
  | nil => simp [bytes]
  | cons a as ih => simp only [List.cons_append, bytes, ih, Nat.add_assoc]

/-- What follows the first `n` bytes; nothing when `n` lies inside a character or past the end. -/
def dropBytes : Nat → List Char → Option (List Char)
  | 0, cs => some cs
  | _ + 1, [] => none
  | n + 1, c :: cs => if c.utf8Size ≤ n + 1 then dropBytes (n + 1 - c.utf8Size) cs else none

/-- The longest run of whole characters within the first `n` bytes. -/
def takeBytes : Nat → List Char → List Char
  | _, [] => []
  | n, c :: cs => if c.utf8Size ≤ n then c :: takeBytes (n - c.utf8Size) cs else []

/-- The characters between two offsets. -/
def slice (text : List Char) (start stop : Nat) : List Char :=
  match dropBytes start text with
  | some rest => takeBytes (stop - start) rest
  | none => []

end Text

theorem Place.offset_after (p : Place) (cs : List Char) :
    (p.after cs).offset = p.offset + Text.bytes cs := by
  induction cs generalizing p with
  | nil => rfl
  | cons c cs ih =>
    have step : (p.next c).offset = p.offset + c.utf8Size := by
      by_cases h : c = '\n'
      · subst h; rfl
      · simp [Place.next, h]
    show ((p.next c).after cs).offset = _
    rw [ih, step, Text.bytes, Nat.add_assoc]

end Dartify
