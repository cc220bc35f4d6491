import Dartify.Command.Arguments
import Dartify.Files.Volume
import Dartify.Program.Translation
import Dartify.Settings.Basic

/-! A run of the command. All files are loaded and translated before anything is written, and the
translation goes to one place. -/
namespace Dartify.Command

/-- What a run leaves behind: its exit status and what it printed. -/
structure Outcome where
  status : Nat
  output : String
  errors : List String
deriving DecidableEq, Inhabited

/-- What surrounds a run. -/
structure Environment where
  settings : Settings
  /-- A filter that wins over the one that is set. -/
  filter : Option String
deriving Inhabited

/-- Where a project keeps its settings. -/
def settingsPath : String := ".tsdart/config.toml"

/-- What surrounds a run in a volume. -/
def Environment.ofVolume (v : Volume) (everywhere filter : Option String) : Environment :=
  ⟨.load everywhere (v.read (.ofText settingsPath)).toOption, filter⟩

/-- The filter that the environment, the settings or nobody asks for, and complaints about it. -/
def Environment.logFilter (e : Environment) : Log.Filter × List String :=
  match e.filter.or e.settings.logFilter with
  | some text => Log.Filter.ofText text
  | none => (.standard, [])

/-- The line that says why there is no translation. -/
def describe : Failure → String
  | .load (.unreadable path cause) => "cannot read " ++ path.render ++ ": " ++ cause.message
  | .load (.rejected file cause) => cause.render file
  | .load .nesting => "references nest too deep"
  | .write (.fault error) => error.render
  | .write .depth => "the program nests too deep"

/-- The lines of messages, each of which begins a line. -/
def linesOf (messages : List String) : List String :=
  messages.flatMap fun m => (Text.split '\n' m.toList).map String.ofList

def success (output : String) (messages : List String) : Outcome := ⟨0, output, linesOf messages⟩

def failed (messages : List String) : Outcome := ⟨1, "", linesOf messages⟩

def misused (e : UsageError) : Outcome := ⟨2, "", [e.message]⟩

/-- Translates files, and writes the translation through `write` if it goes to a file. -/
def translate {m : Type → Type} [Monad m] (write : String → String → m (Option FileFault))
    (host : Host) (env : Environment) (files : List String) : m Outcome := do
  let (filter, complaints) := env.logFilter
  let shown (events : List Log.Event) := complaints ++ Log.Event.texts filter events
  let (result, events) := Program.translate host (files.map Path.ofText)
  let events := .translating files.length :: events
  match result with
  | .error cause => return failed (shown events ++ [describe cause])
  | .ok text =>
    match env.settings.outputPath with
    | none => return success text (shown events)
    | some path =>
      match ← write path text with
      | none => return success "" (shown (events ++ [.wrote path]))
      | some fault =>
        return failed (shown events ++ ["cannot write " ++ path ++ ": " ++ fault.message])

/-- Does what the arguments ask for. -/
def perform {m : Type → Type} [Monad m] (write : String → String → m (Option FileFault))
    (host : Host) (env : Environment) (arguments : List String) : m Outcome :=
  match read arguments with
  | .error e => return misused e
  | .ok .help => return success helpText []
  | .ok .version => return success versionText []
  | .ok (.translate files) => translate write host env files

/-- Writes into a volume; what cannot be written leaves it as it is. -/
def writeVolume (path text : String) : StateM Volume (Option FileFault) := fun v =>
  match v.write path text with
  | .ok v => (none, v)
  | .error fault => (some fault, v)

/-- A run in a volume. It may have written to the standard output as to a file. -/
def run (v : Volume) (env : Environment) (arguments : List String) : Outcome × Volume :=
  let (o, after) := (perform writeVolume v.host env arguments).run v
  ({ o with output := after.printed ++ o.output }, after)

end Dartify.Command
