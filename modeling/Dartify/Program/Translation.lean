import Dartify.Dart.Emission
import Dartify.Program.Load

/-! Translating: a source text, or a program file by file. -/
namespace Dartify

/-- Why there is no translation. -/
inductive Failure where
  | load (cause : Program.LoadError)
  | write (cause : Dart.Stop)
deriving DecidableEq, Inhabited

namespace Program

/-- Writes files one after the other, and tells about each. The first that cannot be written ends
the program. -/
def writeFiles : List Tree → Except Dart.Stop String × List Log.Event
  | [] => (.ok "", [])
  | file :: files =>
    match Dart.emit file with
    | .error stop => (.error stop, [])
    | .ok pieces =>
      let text := Dart.render pieces
      let (rest, events) := writeFiles files
      (rest.map (text ++ ·), .translated file.fileName text.utf8ByteSize :: events)

/-- The Dart of all source files in order. -/
def write (p : Program) : Except Dart.Stop String × List Log.Event := writeFiles p.files

/-- Loads and writes a program. -/
def translate (host : Host) (roots : List Path) : Except Failure String × List Log.Event :=
  match load host roots with
  | (.error cause, events) => (.error (.load cause), events)
  | (.ok p, events) =>
    let (result, more) := p.write
    (result.mapError Failure.write, events ++ more)

end Program

/-- The Dart of one source text. -/
def translateText (fileName text : String) : Except Failure String :=
  match Tree.ofText fileName text.toList with
  | .error cause => .error (.load (.rejected fileName cause))
  | .ok tree =>
    match Dart.emit tree with
    | .ok pieces => .ok (Dart.render pieces)
    | .error stop => .error (.write stop)

end Dartify
