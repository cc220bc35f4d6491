/-! Classes of blank characters. Each reader has a class of its own: the comment scanner, the
grammar, the reference directives and the rule for omitted semicolons differ on characters
beyond ASCII. -/
namespace Dartify.Text

/-- The characters that end a line. -/
def isLineBreak (c : Char) : Bool :=
  c = '\n' || c = '\r' || c = '\u2028' || c = '\u2029'

/-- The general category of space separators. -/
def isSpaceSeparator (c : Char) : Bool :=
  c = ' ' || c = '\u00a0' || c = '\u1680' || ('\u2000' ≤ c && c ≤ '\u200a') ||
    c = '\u202f' || c = '\u205f' || c = '\u3000'

/-- Blank, tab, line feed, vertical tab, form feed and carriage return. -/
def isAsciiBlank (c : Char) : Bool :=
  c = ' ' || ('\t' ≤ c && c ≤ '\r')

/-- The Unicode property `White_Space`. -/
def isWhiteSpace (c : Char) : Bool :=
  isAsciiBlank c || isSpaceSeparator c || isLineBreak c || c = '\u0085'

/-- Blanks within a line, for the comment scanner: white space that breaks no line, and the
byte-order mark. -/
def isHorizontalBlank (c : Char) : Bool :=
  (isWhiteSpace c && !isLineBreak c) || c = '\ufeff'

/-- The characters that the grammar skips between tokens. -/
def isGrammarBlank (c : Char) : Bool :=
  isAsciiBlank c || isSpaceSeparator c || isLineBreak c ||
    c = '\ufeff' || c = '\u2060' || c = '\u200b'

/-- A text without the white space at its two ends. -/
def trim (cs : List Char) : List Char :=
  ((cs.dropWhile isWhiteSpace).reverse.dropWhile isWhiteSpace).reverse

theorem isHorizontalBlank_not_isLineBreak {c : Char} (h : isHorizontalBlank c = true) :
    isLineBreak c = false := by
  by_cases b : isLineBreak c = true
  · have mark : c = '\ufeff' := by simpa [isHorizontalBlank, b] using h
    subst mark
    exact absurd b (by decide)
  · simpa using b

end Dartify.Text
