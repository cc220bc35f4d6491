/-! The written program as a list of pieces. -/
namespace Dartify.Dart

inductive Piece where
  /-- One token of code. -/
  | code (text : String)
  /-- A comment, and whether it ends its line. -/
  | comment (text : String) (endsLine : Bool)
  | lineFeed
deriving DecidableEq, Inhabited

/-- A blank stands in front of every token and comment. -/
def Piece.render : Piece → String
  | code text => " " ++ text
  | comment text endsLine => " " ++ text ++ if endsLine then "\n" else ""
  | lineFeed => "\n"

def render (pieces : List Piece) : String := String.join (pieces.map Piece.render)

end Dartify.Dart
