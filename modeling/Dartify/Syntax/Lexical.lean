import Dartify.Text.Blank
import Dartify.Text.Hex

/-! The lexical grammar, as lengths of matches: each function counts the characters that its
class takes from the front of a text, and is zero where it takes none. -/
namespace Dartify.Syntax.Lexical

/-- Counts a run of parts, where `part` is the length of the part at the front; `left` characters
belong to the part that is being passed over. -/
def run (part : List Char → Nat) : Nat → List Char → Nat
  | _, [] => 0
  | left + 1, _ :: cs => run part left cs + 1
  | 0, c :: cs =>
    match part (c :: cs) with
    | 0 => 0
    | n + 1 => run part n cs + 1

/-- The length of a run of characters of a class. -/
def runOf (p : Char → Bool) (cs : List Char) : Nat := (cs.takeWhile p).length

/-! ## Trivia -/

/-- A comment up to the end of its line. -/
def lineComment (cs : List Char) : Nat :=
  match cs with
  | '/' :: '/' :: r => 2 + runOf (!Text.isLineBreak ·) r
  | _ => 0

/-- The characters of a block comment behind its opening, up to its closing; none if it is never
closed. -/
def blockTail : List Char → Option Nat
  | [] => none
  | '*' :: '/' :: _ => some 2
  | _ :: cs => (blockTail cs).map (· + 1)

def blockComment (cs : List Char) : Nat :=
  match cs with
  | '/' :: '*' :: r =>
    match blockTail r with
    | some n => n + 2
    | none => 0
  | _ => 0

/-- A comment in the style of a markup language. -/
def markupComment (cs : List Char) : Nat :=
  let line := runOf fun c => !Text.isLineBreak c || c = '\r'
  match cs with
  | '<' :: '!' :: '-' :: '-' :: r => 4 + line r
  | '-' :: '-' :: '>' :: r => 3 + line r
  | _ => 0

/-- A length behind a gap, or none if nothing follows the gap. -/
def behind (gap length : Nat) : Nat := if length = 0 then 0 else gap + length

/-- A comment and the blanks in front of it. In front of a comment in the style of a markup
language stand only ASCII blanks and the two separators of lines. -/
def commentPart (markup : Bool) (cs : List Char) : Nat :=
  let plain := runOf (fun c => Text.isAsciiBlank c || c = '\u2028' || c = '\u2029') cs
  let marked := if markup then behind plain (markupComment (cs.drop plain)) else 0
  if marked = 0 then
    let gap := runOf Text.isGrammarBlank cs
    let r := cs.drop gap
    behind gap (lineComment r + blockComment r)
  else marked

/-- The comments in front of a token, with all blanks but those behind the last comment. -/
def comments (markup : Bool) (cs : List Char) : Nat := run (commentPart markup) 0 cs

/-- The blanks and comments in front of a token. A block comment that is never closed is none.
Comments in the style of a markup language count only where `markup` allows them. -/
def trivia (markup : Bool) (cs : List Char) : Nat :=
  let n := comments markup cs
  n + runOf Text.isGrammarBlank (cs.drop n)

/-! ## Words -/

/-- The characters that an identifier may hold besides digits. -/
def isIdentifierChar (c : Char) : Bool :=
  !(c ≤ '\x1f' || Text.isGrammarBlank c ||
    ":;`\"'@#.,|^&<=>+-*/\\%?!~()[]\x7b\x7d".toList.contains c)

/-- A braced code point behind `\u`. -/
def bracedHex (cs : List Char) : Nat :=
  match cs with
  | '{' :: r =>
    let n := runOf Text.isHexDigit r
    if n = 0 then 0
    else
      match r.drop n with
      | '}' :: _ => n + 2
      | _ => 0
  | _ => 0

/-- The number of hexadecimal digits at the front if there are at least `n`, and else none. -/
def fixedHex (n : Nat) (cs : List Char) : Nat :=
  if runOf Text.isHexDigit (cs.take n) = n then n else 0

/-- One character of an identifier, or an escape of one. -/
def identifierPart : List Char → Nat
  | '\\' :: 'u' :: cs =>
    match bracedHex cs with
    | 0 =>
      match fixedHex 4 cs with
      | 0 => 0
      | n => n + 2
    | n => n + 2
  | c :: _ => if isIdentifierChar c then 1 else 0
  | [] => 0

/-- An identifier or keyword. -/
def word (cs : List Char) : Nat :=
  match cs with
  | c :: _ => if c.isDigit then 0 else run identifierPart 0 cs
  | [] => 0

/-- A name with a number sign in front. -/
def privateName (cs : List Char) : Nat :=
  match cs with
  | '#' :: r =>
    match word r with
    | 0 => 0
    | n => n + 1
  | _ => 0

/-! ## Numbers -/

/-- A digit, or a separator with a digit behind it. -/
def digitPart (p : Char → Bool) : List Char → Nat
  | '_' :: d :: _ => if p d then 2 else 0
  | c :: _ => if p c then 1 else 0
  | [] => 0

/-- Digits with single separators between them. -/
def digits (p : Char → Bool) (cs : List Char) : Nat :=
  match cs with
  | c :: _ => if p c then run (digitPart p) 0 cs else 0
  | [] => 0

/-- An exponent. -/
def exponent (cs : List Char) : Nat :=
  match cs with
  | e :: r =>
    if e = 'e' || e = 'E' then
      match r with
      | '+' :: ds => match digits Char.isDigit ds with
        | 0 => 0
        | n => n + 2
      | '-' :: ds => match digits Char.isDigit ds with
        | 0 => 0
        | n => n + 2
      | ds => match digits Char.isDigit ds with
        | 0 => 0
        | n => n + 1
    else 0
  | [] => 0

/-- Whether decimal digits may stand before a point or an exponent: a zero in front needs a
digit other than zero right behind it, or stands alone. -/
def isDecimalInteger (ds : List Char) : Bool :=
  match ds with
  | ['0'] => true
  | '0' :: d :: _ => d.isDigit && d != '0'
  | _ => true

/-- The mark of a big integer. -/
def bigMark (cs : List Char) : Nat :=
  match cs with
  | 'n' :: _ => 1
  | _ => 0

/-- A number with a base mark, if there are digits behind the mark. -/
def based (p : Char → Bool) (cs : List Char) : Nat :=
  match digits p (cs.drop 2) with
  | 0 => 0
  | n => n + 2 + bigMark (cs.drop (n + 2))

/-- A number that begins with a decimal digit and has no base mark. -/
def decimal (cs : List Char) : Nat :=
  let n := digits Char.isDigit cs
  let r := cs.drop n
  if bigMark r = 1 then n + 1
  else if isDecimalInteger (cs.take n) then
    match r with
    | '.' :: f =>
      let m := digits Char.isDigit f
      n + 1 + m + exponent (f.drop m)
    | _ => n + exponent r
  else n

/-- The predicate of digits for a base mark. -/
def baseDigit? (c : Char) : Option (Char → Bool) :=
  if c = 'x' || c = 'X' then some Text.isHexDigit
  else if c = 'b' || c = 'B' then some fun d => d = '0' || d = '1'
  else if c = 'o' || c = 'O' then some fun d => '0' ≤ d && d ≤ '7'
  else none

/-- A numeric literal. -/
def number (cs : List Char) : Nat :=
  match cs with
  | '0' :: mark :: _ =>
    match baseDigit? mark with
    | some p =>
      match based p cs with
      | 0 => 1
      | n => n
    | none => decimal cs
  | '.' :: f =>
    match digits Char.isDigit f with
    | 0 => 0
    | m => 1 + m + exponent (f.drop m)
  | c :: _ => if c.isDigit then decimal cs else 0
  | [] => 0

/-! ## Strings, regular expressions and templates -/

/-- An escape, the backslash included. -/
def escape (cs : List Char) : Nat :=
  match cs with
  | '\\' :: 'x' :: r =>
    match fixedHex 2 r with
    | 0 => 0
    | n => n + 2
  | '\\' :: 'u' :: r =>
    match bracedHex r with
    | 0 =>
      match fixedHex 4 r with
      | 0 => 0
      | n => n + 2
    | n => n + 2
  | '\\' :: c :: d :: _ =>
    if (c = '\r' || c = '?') && (d = '\n' || d = '\u2028' || d = '\u2029') then 3 else 2
  | '\\' :: _ :: _ => 2
  | _ => 0

/-- One character of a string with the given quote, or an escape, or line breaks that a comment
follows. -/
def stringPart (quote : Char) (cs : List Char) : Nat :=
  match cs with
  | '\\' :: _ => escape cs
  | c :: _ =>
    if c = quote then 0
    else if c = '\n' || c = '\r' then
      let gap := runOf Text.isGrammarBlank cs
      let r := cs.drop gap
      behind gap (lineComment r + blockComment r)
    else 1
  | [] => 0

/-- The line breaks and blanks that may stand right in front of a closing quote. -/
def stringGap (cs : List Char) : Nat :=
  match cs with
  | c :: _ => if c = '\n' || c = '\r' then runOf Text.isGrammarBlank cs else 0
  | [] => 0

/-- A string literal with its quotes. -/
def string (cs : List Char) : Nat :=
  match cs with
  | quote :: r =>
    if quote = '"' || quote = '\'' then
      let body := run (stringPart quote) 0 r
      let n := body + stringGap (r.drop body)
      if (r.drop n).head? = some quote then n + 2 else 0
    else 0
  | [] => 0

/-- One character of a class of a regular expression, or an escape. -/
def classPart : List Char → Nat
  | '\\' :: c :: _ => if c = '\n' then 0 else 2
  | c :: _ => if c = ']' || c = '\n' || c = '\\' then 0 else 1
  | [] => 0

/-- One character of a regular expression, an escape, or a class. -/
def regexPart : List Char → Nat
  | '[' :: r =>
    let n := run classPart 0 r
    match r.drop n with
    | ']' :: _ => n + 2
    | _ => 0
  | '\\' :: c :: _ => if c = '\n' then 0 else 2
  | c :: _ => if c = '/' || c = '\\' || c = '\n' then 0 else 1
  | [] => 0

/-- A regular expression literal with its flags. -/
def regex (cs : List Char) : Nat :=
  match cs with
  | '/' :: r =>
    match run regexPart 0 r with
    | 0 => 0
    | n =>
      match r.drop n with
      | '/' :: f => n + 2 + runOf (fun c => 'a' ≤ c && c ≤ 'z') f
      | _ => 0
  | _ => 0

/-- One character of a template outside its substitutions, or an escape. -/
def templatePart (cs : List Char) : Nat :=
  match cs with
  | '\\' :: _ => escape cs
  | '$' :: '{' :: _ => 0
  | c :: _ => if c = '`' || c = '\x00' then 0 else 1
  | [] => 0

/-- A stretch of a template up to its end or the next substitution. -/
def template (cs : List Char) : Nat := run templatePart 0 cs

/-- An interpreter line. -/
def interpreterLine (cs : List Char) : Nat :=
  match cs with
  | '#' :: '!' :: r => 2 + runOf (· != '\n') r
  | _ => 0

/-! ## Symbols -/

/-- The symbols, longer ones first. -/
def symbols : List String :=
  [">>>=",
   "===", "!==", "**=", "<<=", ">>=", ">>>", "&&=", "||=", "??=", "...",
   "=>", "==", "!=", "<=", ">=", "&&", "||", "??", "?.", "++", "--", "+=", "-=", "*=", "/=",
   "%=", "&=", "|=", "^=", "<<", ">>", "**",
   "\x7b", "\x7d", "(", ")", "[", "]", ";", ",", "<", ">", "+", "-", "*", "/", "%", "&", "|",
   "^", "!", "~", "?", ":", "=", ".", "@", "`"]

def symbolTable : List (List Char) := symbols.map String.toList

/-- The longest symbol at the front. -/
def symbol (cs : List Char) : Nat :=
  match symbolTable.find? (·.isPrefixOf cs) with
  | some s => s.length
  | none => 0

/-- The text behind the bracket that it begins with, where `depth` brackets are open. Brackets count
wherever they stand. -/
def behindBrackets : Nat → List Char → List Char
  | _, [] => []
  | depth, c :: cs =>
    if ['(', '[', '\x7b'].contains c then behindBrackets (depth + 1) cs
    else if [')', ']', '\x7d'].contains c then
      if depth ≤ 1 then cs else behindBrackets (depth - 1) cs
    else behindBrackets depth cs

/-- Whether the text behind a token begins with the mark of a conditional. Only comments and ASCII
blanks stand in front of it. A question mark that could belong to an optional parameter, or
that a point follows, is none, except that behind blanks the point may begin a number. -/
def conditionalMark (cs : List Char) : Bool :=
  match (cs.drop (comments false cs)).dropWhile Text.isAsciiBlank with
  | '?' :: r =>
    match r, r.dropWhile Text.isAsciiBlank with
    | '?' :: _, _ => false
    | '.' :: _, _ => false
    | _, '.' :: d :: _ => d.isDigit
    | _, c :: _ => !":),.".toList.contains c
    | _, [] => true
  | _ => false

end Dartify.Syntax.Lexical
