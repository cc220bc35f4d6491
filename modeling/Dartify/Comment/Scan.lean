import Dartify.Text.Place
import Dartify.Text.Blank

/-! The comments in front of a token. A comment on the line of the token before it belongs to
that token, so collecting starts behind the first line break, or at once at the start of the
text. -/
namespace Dartify.Comment

/-- The bytes of one comment, and whether a line break follows it with only blanks between. -/
structure Range where
  start : Nat
  stop : Nat
  endsLine : Bool
deriving DecidableEq, Inhabited

/-- What the scanner is inside of; a comment is known by its start. -/
inductive Mode where
  | gap
  | line (start : Nat)
  | block (start : Nat)
deriving DecidableEq

/-- The state between two trivia items: whether comments count already, and the comment whose
line end is still open. -/
structure Pending where
  collecting : Bool
  last : Option Range
deriving DecidableEq

namespace Pending

/-- A line break ends the line of the open comment, and from here on comments count. -/
def lineBreak (p : Pending) : Pending :=
  ⟨true, p.last.map fun r => { r with endsLine := true }⟩

/-- The comments settled by the arrival of another one. -/
def settled (p : Pending) : List Range :=
  if p.collecting then p.last.toList else []

/-- The state behind a comment. -/
def comment (p : Pending) (start stop : Nat) (endsLine : Bool) : Pending :=
  if p.collecting then ⟨true, some ⟨start, stop, endsLine⟩⟩ else p

end Pending

/-- Reads trivia up to the first token and returns the comments that count. A block comment
that is never closed runs to the end. -/
def scan : Mode → Nat → Pending → List Char → List Range
  | .gap, _, p, [] => p.last.toList
  | .gap, pos, p, '/' :: '/' :: cs => scan (.line pos) (pos + 2) p cs
  | .gap, pos, p, '/' :: '*' :: cs => scan (.block pos) (pos + 2) p cs
  | .gap, pos, p, c :: cs =>
    if Text.isLineBreak c then scan .gap (pos + c.utf8Size) p.lineBreak cs
    else if Text.isHorizontalBlank c then scan .gap (pos + c.utf8Size) p cs
    else p.last.toList
  | .line start, pos, p, [] => p.settled ++ (p.comment start pos false).last.toList
  | .line start, pos, p, c :: cs =>
    if Text.isLineBreak c then
      p.settled ++ scan .gap (pos + c.utf8Size) (p.comment start pos true).lineBreak cs
    else scan (.line start) (pos + c.utf8Size) p cs
  | .block start, pos, p, [] => p.settled ++ (p.comment start pos false).last.toList
  | .block start, pos, p, '*' :: '/' :: cs =>
    p.settled ++ scan .gap (pos + 2) (p.comment start (pos + 2) false) cs
  | .block start, pos, p, c :: cs => scan (.block start) (pos + c.utf8Size) p cs

/-- Whether the text opens with an interpreter line. -/
def startsInterpreterLine : List Char → Bool
  | '#' :: '!' :: _ => true
  | _ => false

/-- The leading comments found from an offset. At the start of the text an interpreter line is
passed over; an offset inside a character or past the end has none. -/
def leading (text : List Char) (pos : Nat) : List Range :=
  if pos = 0 then
    if startsInterpreterLine text then
      let line := text.takeWhile (!Text.isLineBreak ·)
      scan .gap (Text.bytes line) ⟨true, none⟩ (text.drop line.length)
    else scan .gap 0 ⟨true, none⟩ text
  else
    match Text.dropBytes pos text with
    | some rest => scan .gap pos ⟨false, none⟩ rest
    | none => []

/-- The text of a comment. -/
def Range.text (r : Range) (text : List Char) : String :=
  String.ofList (Text.slice text r.start r.stop)

end Dartify.Comment
