import Dartify.Text.Blank
import Dartify.Text.Search

/-! Reference directives: comments in the header of a file that name other files. -/
namespace Dartify.Reference

/-- What follows a run of characters, if the text begins with it. -/
def afterRun (run : List Char) (cs : List Char) : Option (List Char) :=
  if run.isPrefixOf cs then some (cs.drop run.length) else none

/-- What follows at least one character of white space. -/
def afterBlanks (cs : List Char) : Option (List Char) :=
  match cs with
  | c :: rest => if Text.isWhiteSpace c then some (rest.dropWhile Text.isWhiteSpace) else none
  | [] => none

def isQuote (c : Char) : Bool := c = '"' || c = '\''

/-- What stands between two quotes, if anything. The quotes may differ. -/
def quoted (cs : List Char) : Option (List Char) :=
  match cs with
  | quote :: rest =>
    let path := rest.takeWhile fun c => !isQuote c
    if isQuote quote && !path.isEmpty && path.length < rest.length then some path else none
  | [] => none

/-- The path that a line names, if it is a directive. -/
def ofLine (line : List Char) : Option (List Char) := do
  let cs ← afterRun "///".toList line
  let cs ← afterRun "<reference".toList (cs.dropWhile Text.isWhiteSpace)
  let cs ← afterRun "path".toList (← afterBlanks cs)
  let cs ← afterRun "=".toList (cs.dropWhile Text.isWhiteSpace)
  quoted (cs.dropWhile Text.isWhiteSpace)

/-- Whether a line without the white space at its ends belongs to the header: it is empty, a
comment, or a line for the command interpreter. -/
def isHeader (line : List Char) : Bool :=
  line.isEmpty || "//".toList.isPrefixOf line || "#!".toList.isPrefixOf line

/-- The lines of the header, without the white space at their ends. -/
def header (text : List Char) : List (List Char) :=
  ((Text.split '\n' text).map Text.trim).takeWhile isHeader

/-- The paths that the header of a text names, in order. -/
def paths (text : List Char) : List String :=
  (header text).filterMap fun line => (ofLine line).map String.ofList

end Dartify.Reference
