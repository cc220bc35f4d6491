import Dartify.Syntax.Lexical
import Dartify.Text.Place

/-! Tokens. A token keeps the trivia in front of it, so the tokens of a text spell it out. -/
namespace Dartify.Syntax

inductive TokenKind where
  | word
  | number
  | string
  | regex
  /-- A stretch of a template between its quotes and substitutions. -/
  | template
  | symbol
  | privateName
  | interpreterLine
  | endOfText
  /-- A character that begins no token. -/
  | stray
deriving DecidableEq, Inhabited

namespace TokenKind

/-- Symbols that an operand or a statement may end with, without ending it themselves. -/
def closingSymbols : List String := [")", "]", "\x7d", "`", "++", "--"]

/-- Keywords behind which something must follow. -/
def demandingWords : List String :=
  ["case", "catch", "class", "const", "default", "delete", "do", "else", "extends", "finally",
   "for", "function", "if", "in", "instanceof", "switch", "throw", "try", "typeof", "var", "void",
   "while", "with"]

/-- Whether a comment in the style of a markup language may follow a token: the token ends a
statement itself, or neither an operand nor a statement can end with it. -/
def admitsMarkup (kind : TokenKind) (text : String) : Bool :=
  match kind with
  | symbol => !closingSymbols.contains text
  | word => demandingWords.contains text
  | _ => false

end TokenKind

/-- A token and where it stands: `behind` is the end of the token before it. -/
structure Token where
  behind : Place
  trivia : List Char
  kind : TokenKind
  text : String
deriving DecidableEq, Inhabited

namespace Token

/-- The characters of a token with its trivia. -/
def spelling (t : Token) : List Char := t.trivia ++ t.text.toList

/-- Where the text of the token begins. -/
def start (t : Token) : Place := t.behind.after t.trivia

/-- Where the text of the token ends. -/
def stop (t : Token) : Place := t.behind.after t.spelling

theorem stop_eq (t : Token) : t.stop = t.start.after t.text.toList := by
  simp [stop, start, spelling, Place.after_append]

/-- The characters of a run of tokens. -/
def spell (ts : List Token) : List Char := ts.flatMap spelling

/-- The tokens lead from one place to another without a gap, and none is empty. -/
def Linked : Place → List Token → Place → Prop
  | p, [], q => p = q
  | p, t :: ts, q => t.behind = p ∧ t.text ≠ "" ∧ Linked t.stop ts q

theorem Linked.snoc {p q : Place} {ts : List Token} {t : Token} (h : Linked p ts q)
    (behind : t.behind = q) (text : t.text ≠ "") : Linked p (ts ++ [t]) t.stop := by
  induction ts generalizing p with
  | nil => exact ⟨behind.trans h.symm, text, rfl⟩
  | cons u us ih => exact ⟨h.1, h.2.1, ih h.2.2⟩

/-- All the trivia in front of the token is its own, unless it is a stretch of a template. -/
def OwnsTrivia (t : Token) (rest : List Char) : Prop :=
  t.kind = .template ∨
    ∃ markup, t.trivia = (t.spelling ++ rest).take (Lexical.trivia markup (t.spelling ++ rest))

/-- Each of some tokens in front of a rest owns its trivia. -/
def Spaced : List Token → List Char → Prop
  | [], _ => True
  | t :: ts, rest => t.OwnsTrivia (spell ts ++ rest) ∧ Spaced ts rest

theorem Spaced.snoc {ts : List Token} {t : Token} {rest : List Char}
    (h : Spaced ts (t.spelling ++ rest)) (own : t.OwnsTrivia rest) : Spaced (ts ++ [t]) rest := by
  induction ts with
  | nil => exact ⟨own, trivial⟩
  | cons u us ih =>
    have all : spell (us ++ [t]) ++ rest = spell us ++ (t.spelling ++ rest) := by simp [spell]
    exact ⟨all ▸ h.1, ih h.2⟩

end Token

end Dartify.Syntax
