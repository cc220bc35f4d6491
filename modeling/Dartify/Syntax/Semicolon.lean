import Dartify.Text.Blank

/-! The rule for omitted semicolons. A statement may end without one in front of a closing brace,
at the end of the text, and at a line feed in front of a token that does not continue it. Blanks
are ASCII here, a comment on the line is passed over, and a line feed within a block comment
counts only behind the first line feed. -/
namespace Dartify.Syntax.Semicolon

/-- What may follow the construct that would end: whether an operator could, and whether it is a
function without a body yet. -/
structure Context where
  afterExpression : Bool
  afterSignature : Bool
deriving DecidableEq

/-- Whether a letter of the English alphabet is in front. -/
def startsAlpha (cs : List Char) : Bool :=
  match cs with
  | c :: _ => c.isAlpha
  | [] => false

/-- An operator that is a word continues an expression: `in` and `instanceof`, and what looks
like them as far as letters go. -/
def isWordOperator (cs : List Char) : Bool :=
  match cs with
  | 'i' :: 'n' :: r =>
    !startsAlpha r || ("stanceof".toList.isPrefixOf r && !startsAlpha (r.drop 8))
  | _ => false

/-- Whether the first token of a line lets the line before it end. -/
def endsBefore (ctx : Context) (cs : List Char) : Bool :=
  match cs with
  | [] => true
  | c :: r =>
    if "`,.;*%><=?^|&/:".toList.contains c then false
    else if c = '{' then !ctx.afterSignature
    else if c = '(' || c = '[' then !ctx.afterExpression
    else if c = '+' || c = '-' then r.head? = some c
    else if c = '!' then r.head? != some '='
    else !isWordOperator cs

/-- What the reader is inside of: the line of the construct, blanks on it that only a comment may
follow, a comment on it, a later line, or a comment on a later line. -/
inductive Mode where
  | line
  | lineGap
  | lineComment
  | lineBlock
  | below
  | belowComment
  | belowBlock
deriving DecidableEq

/-- A closing brace ends a statement, unless a type annotation follows it. -/
def endsAtBrace (ctx : Context) (behind : List Char) : Bool :=
  if (behind.dropWhile Text.isAsciiBlank).head? = some ':' then ctx.afterExpression else true

/-- Reads from the end of the construct on. -/
def omittedFrom (ctx : Context) : Mode → List Char → Bool
  | .line, [] => true
  | .line, '/' :: '/' :: cs => omittedFrom ctx .lineComment cs
  | .line, '/' :: '*' :: cs => omittedFrom ctx .lineBlock cs
  | .line, c :: cs =>
    if c = '}' then endsAtBrace ctx cs
    else if c = '\n' then omittedFrom ctx .below cs
    else if Text.isAsciiBlank c then omittedFrom ctx .line cs
    else if Text.isGrammarBlank c then omittedFrom ctx .lineGap cs
    else false
  | .lineGap, '/' :: '/' :: cs => omittedFrom ctx .lineComment cs
  | .lineGap, '/' :: '*' :: cs => omittedFrom ctx .lineBlock cs
  | .lineGap, c :: cs => if Text.isGrammarBlank c then omittedFrom ctx .lineGap cs else false
  | .lineGap, [] => false
  | .lineComment, [] => true
  | .lineComment, c :: cs =>
    if c = '\n' then omittedFrom ctx .below cs
    else if c = '\r' then omittedFrom ctx .line cs
    else if Text.isLineBreak c then omittedFrom ctx .lineGap cs
    else omittedFrom ctx .lineComment cs
  | .lineBlock, [] => false
  | .lineBlock, '*' :: '/' :: cs => omittedFrom ctx .line cs
  | .lineBlock, _ :: cs => omittedFrom ctx .lineBlock cs
  | .below, [] => true
  | .below, '/' :: '/' :: cs => omittedFrom ctx .belowComment cs
  | .below, '/' :: '*' :: cs => omittedFrom ctx .belowBlock cs
  | .below, c :: cs =>
    if Text.isAsciiBlank c then omittedFrom ctx .below cs else endsBefore ctx (c :: cs)
  | .belowComment, [] => true
  | .belowComment, c :: cs =>
    if c = '\n' then omittedFrom ctx .below cs else omittedFrom ctx .belowComment cs
  | .belowBlock, [] => true
  | .belowBlock, '*' :: '/' :: cs => omittedFrom ctx .below cs
  | .belowBlock, _ :: cs => omittedFrom ctx .belowBlock cs

/-- Whether a semicolon may be omitted in front of what follows. -/
def omitted (ctx : Context) (cs : List Char) : Bool := omittedFrom ctx .line cs

end Dartify.Syntax.Semicolon
