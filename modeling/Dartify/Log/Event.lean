import Dartify.Files.Host
import Dartify.Log.Filter

/-! What a run tells about itself, and the lines in which it does. -/
namespace Dartify.Log

inductive Event where
  | translating (files : Nat)
  | declarationFile (path : Path)
  | unreadableReference (path : Path) (cause : FileFault)
  | reference (source : Path) (target : String)
  | parsing (path : Path)
  | loaded (files declarations : Nat)
  | translated (file : String) (bytes : Nat)
  | wrote (path : String)
deriving DecidableEq, Inhabited

namespace Event

def level : Event → Level
  | unreadableReference .. => .warn
  | reference .. => .trace
  | _ => .debug

/-- The module under whose name filters know an event. -/
def module : Event → String
  | translating _ | wrote _ => "tsdart"
  | translated .. => "tsdart_translate::driver"
  | _ => "tsdart_syntax::program"

/-- The names of the fields of an event besides its message. -/
def fields : Event → List String
  | translating _ => ["files"]
  | declarationFile _ | unreadableReference .. | parsing _ | wrote _ => ["path"]
  | reference .. => ["from", "reference"]
  | loaded .. => ["files", "declarations"]
  | translated .. => ["bytes"]

/-- The place that tells about an event. -/
def place (e : Event) : Origin := ⟨e.module, e.level, "message" :: e.fields⟩

/-- The span that surrounds an event. -/
def span? : Event → Option Span
  | translated file _ => some ⟨"tsdart_translate::driver", .debug, "translate", [("file", file)]⟩
  | _ => none

/-! ## Quoted text -/

def hexDigits (n : Nat) : List Char := Nat.toDigits 16 n

def quoteChar (c : Char) : List Char :=
  if c = '"' || c = '\\' then ['\\', c]
  else if c = '\t' then ['\\', 't']
  else if c = '\r' then ['\\', 'r']
  else if c = '\n' then ['\\', 'n']
  else if c.toNat = 0 then ['\\', '0']
  else if Text.isShapeless c then ['\\', 'u', '{'] ++ hexDigits c.toNat ++ ['}']
  else [c]

/-- A text between quotes. -/
def quote (text : String) : String :=
  String.ofList (['"'] ++ text.toList.flatMap quoteChar ++ ['"'])

/-! ## Lines -/

/-- A span in front of what happens in it. -/
def spanText (s : Span) : String :=
  let values := s.values.map fun (name, value) => name ++ "=" ++ quote value
  s.name ++ "\x7b" ++ String.intercalate " " values ++ "\x7d: "

def message : Event → String
  | translating files => "translating files=" ++ toString files
  | declarationFile path => "skipping declaration file path=" ++ path.render
  | unreadableReference path cause =>
    "cannot read referenced file: " ++ cause.message ++ " path=" ++ path.render
  | reference source target =>
    "reference directive from=" ++ source.render ++ " reference=" ++ quote target
  | parsing path => "parsing path=" ++ path.render
  | loaded files declarations =>
    "program loaded files=" ++ toString files ++ " declarations=" ++ toString declarations
  | translated _ bytes => "translated bytes=" ++ toString bytes
  | wrote path => "wrote output path=" ++ path

/-- The text of an event as a filter shows it. -/
def text (filter : Filter) (e : Event) : String :=
  let surrounding := (e.span?.filter filter.showsSpan).elim "" spanText
  e.level.name ++ " " ++ surrounding ++ e.message

/-- The texts of the events that a filter shows. -/
def texts (filter : Filter) (events : List Event) : List String :=
  (events.filter fun e => filter.admits e.place e.span?).map (text filter)

end Event

end Dartify.Log
