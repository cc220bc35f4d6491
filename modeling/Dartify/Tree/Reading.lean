import Dartify.Abstraction.Statements
import Dartify.Grammar.Source

/-! The tree of a source text. -/
namespace Dartify.Tree

/-- Reads a source text, if the grammar accepts it. -/
def ofText (fileName : String) (text : List Char) : Except SyntaxFault Tree :=
  match Grammar.read? text with
  | some c => (Abstraction.sourceFile text c).map fun s => s.tree fileName text
  | none => throw .rejected

end Dartify.Tree
