import Dartify.Toml.Document

/-! Settings. A file of settings counts as a whole or not at all, and what a project sets
overrides what is set for all projects. -/
namespace Dartify

structure Settings where
  /-- Where the translation is written, if not to standard output. -/
  outputPath : Option String
  logFilter : Option String
deriving DecidableEq, Inhabited

namespace Settings

def standard : Settings := ⟨none, none⟩

/-- The text that a key holds, if it is there. Any other value is an error. -/
def text? (v : Option Toml.Value) : Option (Option String) :=
  match v with
  | none => some none
  | some (.text s) => some (some s)
  | some _ => none

/-- The one setting of a section. A section is a table, or an array of its settings in order. -/
def setting? (document : Toml.Value) (name key : String) : Option (Option String) :=
  match document.get? name with
  | none => some none
  | some (.table o entries) => text? ((Toml.Value.table o entries).get? key)
  | some (.array items) | some (.tables items) => text? items.head?
  | some _ => none

/-- The settings of a file, if it is well formed. Unknown keys mean nothing. -/
def parse? (text : String) : Option Settings := do
  let document ← Toml.parse? text
  return ⟨← setting? document "output" "path", ← setting? document "log" "filter"⟩

/-- What a file sets wins. -/
def override (s : Settings) (file : Option Settings) : Settings :=
  match file with
  | none => s
  | some f => ⟨f.outputPath.or s.outputPath, f.logFilter.or s.logFilter⟩

/-- The settings of the files for all projects and for one project, as far as there are any. -/
def load (everywhere project : Option String) : Settings :=
  (standard.override (everywhere.bind parse?)).override (project.bind parse?)

end Settings

end Dartify
