import Dartify.Command.Run

/-! The command on the files of the system. All that a run may read is read first; the run itself
is `Command.perform`. -/
namespace Dartify.Main

/-- What the system says about a file, in the words of this library. -/
def fault : IO.Error → FileFault
  | .noFileOrDirectory .. => .missing
  | .inappropriateType _ code _ => if code = 21 then .isDirectory else .notDirectory
  | e => .other (toString e)

def readFile (path : String) : IO (Except FileFault String) := do
  match ← (IO.FS.readBinFile path).toBaseIO with
  | .error e => return .error (fault e)
  | .ok content =>
    match String.fromUTF8? content with
    | some text => return .ok text
    | none => return .error .notText

def writeFile (path text : String) : IO (Option FileFault) := do
  match ← (IO.FS.writeFile path text).toBaseIO with
  | .ok () => return none
  | .error e => return some (fault e)

/-- The answers for all files that paths lead to, directly or through references. -/
partial def gather (answers : List (Path × Except FileFault String)) :
    List Path → IO (List (Path × Except FileFault String))
  | [] => return answers
  | path :: paths => do
    if path.isDeclaration || answers.any fun (known, _) => known = path then gather answers paths
    else
      let answer ← readFile path.render
      let referred :=
        match answer with
        | .ok text => (Reference.paths text.toList).map (Program.target path)
        | .error _ => []
      gather ((path, answer) :: answers) (referred ++ paths)

/-- The files that arguments ask for, with all that they refer to. -/
def host (arguments : List String) : IO Host := do
  match Command.read arguments with
  | .ok (.translate files) =>
    return .ofAnswers (← gather [] (files.map fun file => (Path.ofText file).normalize))
  | _ => return .ofAnswers []

/-- The directory that holds the settings for all projects, if the system names one. -/
def settingsDirectory : IO (Option String) := do
  match ← IO.getEnv "XDG_CONFIG_HOME" with
  | some directory => return some directory
  | none => return (← IO.getEnv "HOME").map (· ++ "/.config")

/-- The text of a file of settings, if there is one that can be read. -/
def settingsText (path : String) : IO (Option String) := do
  return (← readFile path).toOption

def environment : IO Command.Environment := do
  let everywhere ←
    match ← settingsDirectory with
    | some directory => settingsText (directory ++ "/tsdart/config.toml")
    | none => pure none
  let project ← settingsText Command.settingsPath
  return ⟨Settings.load everywhere project, ← IO.getEnv "RUST_LOG"⟩

/-- Runs the command, and prints what it leaves behind. -/
def run (arguments : List String) : IO UInt32 := do
  let outcome ← Command.perform writeFile (← host arguments) (← environment) arguments
  outcome.errors.forM IO.eprintln
  (← IO.getStdout).putStr outcome.output
  return outcome.status.toUInt32

end Dartify.Main

def main (arguments : List String) : IO UInt32 := Dartify.Main.run arguments
