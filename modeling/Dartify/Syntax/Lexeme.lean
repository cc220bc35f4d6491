import Dartify.Syntax.Lexical
import Dartify.Syntax.Token

/-! Cutting the next token off a text. What a token is depends on where it is expected: a slash
begins a regular expression or divides, and a closing angle bracket may be half of a shift. Each
way of reading cuts at two counts, and a cut loses nothing. But for the stretches of a template,
the first count is that of the trivia. -/
namespace Dartify.Syntax

/-- The front of a text, cut into trivia, a token and the rest. -/
structure Lexeme (input : List Char) where
  trivia : List Char
  kind : TokenKind
  text : String
  rest : List Char
  spelled : trivia ++ text.toList ++ rest = input
  /-- All the trivia at the front is cut off, unless the text is a stretch of a template. -/
  spaced : kind = .template ∨ ∃ markup, trivia = input.take (Lexical.trivia markup input)

namespace Lexeme

/-- Cuts behind `gap` characters of trivia and `length` characters of text. -/
def cut (input : List Char) (gap length : Nat) (kind : TokenKind)
    (spaced : kind = .template ∨ ∃ markup, gap = Lexical.trivia markup input) : Lexeme input where
  trivia := input.take gap
  kind := kind
  text := String.ofList ((input.drop gap).take length)
  rest := (input.drop gap).drop length
  spelled := by
    rw [String.toList_ofList, List.append_assoc, List.take_append_drop, List.take_append_drop]
  spaced := spaced.imp_right fun ⟨markup, all⟩ => ⟨markup, congrArg input.take all⟩

/-- The kind and length of the token at the front of a text, where an operator or a keyword may
stand. -/
def classify (cs : List Char) : TokenKind × Nat :=
  match cs with
  | [] => (.endOfText, 0)
  | c :: _ =>
    match Lexical.word cs with
    | n + 1 => (.word, n + 1)
    | 0 =>
      match Lexical.number cs with
      | n + 1 => (.number, n + 1)
      | 0 =>
        match Lexical.string cs with
        | n + 1 => (.string, n + 1)
        | 0 =>
          if c = '#' then
            match Lexical.privateName cs with
            | n + 1 => (.privateName, n + 1)
            | 0 => (.stray, 1)
          else
            match Lexical.symbol cs with
            | n + 1 => (.symbol, n + 1)
            | 0 => (.stray, 1)

/-- Reads the next token as an operator, a keyword or a literal. -/
def read (markup : Bool) (input : List Char) : Lexeme input :=
  let gap := Lexical.trivia markup input
  let (kind, length) := classify (input.drop gap)
  cut input gap length kind (.inr ⟨markup, rfl⟩)

/-- Reads a token of a given class, if there is one. -/
def readAs (markup : Bool) (kind : TokenKind) (length : List Char → Nat) (input : List Char) :
    Option (Lexeme input) :=
  let gap := Lexical.trivia markup input
  match length (input.drop gap) with
  | 0 => none
  | n => some (cut input gap n kind (.inr ⟨markup, rfl⟩))

def readRegex (input : List Char) : Option (Lexeme input) := readAs true .regex Lexical.regex input

/-- Reads a symbol of one character, even where it is the front of a longer one; but a bar that
closes an object type is none. -/
def readHead (symbol : Char) (input : List Char) : Option (Lexeme input) :=
  let length (cs : List Char) :=
    match cs with
    | c :: r => if c = symbol && !(c = '|' && r.head? = some '\x7d') then 1 else 0
    | [] => 0
  readAs false .symbol length input

/-- Reads a symbol in full. -/
def readWhole (symbol : String) (input : List Char) : Option (Lexeme input) :=
  let length (cs : List Char) := if symbol.toList.isPrefixOf cs then symbol.length else 0
  readAs false .symbol length input

def readInterpreterLine (input : List Char) : Option (Lexeme input) :=
  readAs false .interpreterLine Lexical.interpreterLine input

/-- Reads a stretch of a template; blanks in it are no trivia. -/
def readTemplate (input : List Char) : Option (Lexeme input) :=
  match Lexical.template input with
  | 0 => none
  | n => some (cut input 0 n .template (.inl rfl))

/-- Reads a symbol that stands right at the front. -/
def readAdjacent (symbol : String) (input : List Char) : Option (Lexeme input) :=
  (readWhole symbol input).filter (·.trivia.isEmpty)

end Lexeme

end Dartify.Syntax
