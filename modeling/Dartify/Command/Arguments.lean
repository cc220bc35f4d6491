/-! The arguments of the command. -/
namespace Dartify.Command

/-- What is asked for. -/
inductive Request where
  | translate (files : List String)
  | help
  | version
deriving DecidableEq, Inhabited

/-- How arguments can be wrong. -/
inductive UsageError where
  | unknownOption (argument : String)
  /-- A file without a name, or none at all. -/
  | noFile
deriving DecidableEq, Inhabited

def UsageError.message : UsageError → String
  | unknownOption argument => "unexpected argument '" ++ argument ++ "'"
  | noFile => "a file name is required"

/-- The files that are asked for; each must have a name, and there must be one. -/
def files (names : List String) : Except UsageError Request :=
  if names.isEmpty || names.contains "" then .error .noFile else .ok (.translate names)

/-- Whether an argument is an option. A single hyphen is none. -/
def isOption (argument : String) : Bool :=
  match argument.toList with
  | '-' :: _ :: _ => true
  | _ => false

/-- Reads arguments behind those already read. An option counts only if the names in front of it
are in order, and behind two hyphens there are no options. -/
def readFrom (names : List String) : List String → Except UsageError Request
  | [] => files names
  | "--" :: rest => files (names ++ rest)
  | argument :: rest =>
    if !isOption argument then readFrom (names ++ [argument]) rest
    else if names.contains "" then .error .noFile
    else if argument = "--help" || "-h".toList.isPrefixOf argument.toList then .ok .help
    else if argument = "--version" || "-V".toList.isPrefixOf argument.toList then .ok .version
    else .error (.unknownOption argument)

/-- What a list of arguments asks for. -/
def read (arguments : List String) : Except UsageError Request := readFrom [] arguments

/-! ## Texts -/

def helpText : String :=
  "Translate TypeScript to Dart\n\nUsage: tsdart <FILES>...\n\nArguments:\n" ++
  "  <FILES>...  TypeScript files to translate. Files they reference are included\n\nOptions:\n" ++
  "  -h, --help     Print help\n  -V, --version  Print version\n"

def versionText : String := "tsdart 0.1.0\n"

end Dartify.Command
