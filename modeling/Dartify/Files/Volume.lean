import Dartify.Files.Host

/-! A directory with all that it holds, as a value. Locations in it are lists of names. Of what
lies outside only the way up and what every system has are known. -/
namespace Dartify

inductive Entry where
  | file (content : ByteArray)
  | directory
deriving Inhabited

/-- The entries of a directory, and what was written to the standard output. Locations above an
entry are directories too. -/
structure Volume where
  entries : List (List String × Entry)
  printed : String
deriving Inhabited

/-- What is no file and no directory. -/
inductive Device where
  /-- It is empty, and swallows what is written to it. -/
  | void
  | output
deriving DecidableEq, Inhabited

namespace Volume

def names (segments : List Segment) : List String := segments.map Segment.spelling

/-- The directory with the given files and empty directories. -/
def ofEntries (entries : List (Path × Entry)) : Volume :=
  ⟨entries.map fun (p, e) => (names p.segments, e), ""⟩

/-- What stands at a location. -/
def entry? (v : Volume) (location : List String) : Option Entry :=
  match v.entries.find? fun (l, _) => l == location with
  | some (_, e) => some e
  | none =>
    if location.isEmpty || v.entries.any fun (l, _) => location.isPrefixOf l then
      some .directory
    else none

/-- What a way through a volume leads to. -/
inductive Found where
  | file (location : List String) (content : ByteArray)
  | directory
  | device (device : Device)
  /-- Nothing, in a directory that exists. -/
  | vacancy (location : List String)
deriving Inhabited

/-- The bytes of a name, and those of a path, are bounded. -/
def nameLimit : Nat := 255

def pathLimit : Nat := 4095

def isLong (name : String) : Bool := nameLimit < name.utf8ByteSize

/-- Follows segments from a directory. -/
def follow (v : Volume) (location : List String) : List Segment → Except FileFault Found
  | [] => .ok .directory
  | .current :: rest => v.follow location rest
  | .parent :: rest =>
    if location.isEmpty then
      if rest.all (· == .parent) then .ok .directory else .error .missing
    else v.follow location.dropLast rest
  | .name text :: rest =>
    let location := location ++ [text]
    if isLong text then .error .nameTooLong
    else
      match v.entry? location with
      | some .directory => v.follow location rest
      | some (.file content) =>
        if rest.isEmpty then .ok (.file location content) else .error .notDirectory
      | none => if rest.isEmpty then .ok (.vacancy location) else .error .missing

/-- The directories of every system. -/
def systemDirectories : List (List String) :=
  [["bin"], ["boot"], ["dev"], ["etc"], ["home"], ["lib"], ["media"], ["mnt"], ["opt"], ["proc"],
   ["root"], ["run"], ["sbin"], ["srv"], ["sys"], ["tmp"], ["usr"], ["usr", "bin"],
   ["usr", "lib"], ["usr", "local"], ["usr", "share"], ["var"], ["var", "log"], ["var", "tmp"]]

/-- The devices of every system that matter here. -/
def systemDevice? (location : List String) : Option Device :=
  match location with
  | ["dev", "null"] => some .void
  | ["dev", "stdout"] => some .output
  | _ => none

/-- Follows segments from a directory of the system. -/
def followSystem (location : List String) : List Segment → Except FileFault Found
  | [] => .ok .directory
  | .current :: rest => followSystem location rest
  | .parent :: rest => followSystem location.dropLast rest
  | .name text :: rest =>
    let location := location ++ [text]
    if isLong text then .error .nameTooLong
    else if systemDirectories.contains location then followSystem location rest
    else
      match systemDevice? location with
      | some device => if rest.isEmpty then .ok (.device device) else .error .notDirectory
      | none => .error .missing

/-- Follows a path. -/
def find (v : Volume) (p : Path) : Except FileFault Found :=
  if '\x00' ∈ p.render.toList then .error .nulInPath
  else if pathLimit < p.render.utf8ByteSize then .error .nameTooLong
  else if p.absolute then followSystem [] p.segments
  else if p.segments.isEmpty then .error .missing
  else v.follow [] p.segments

def read (v : Volume) (p : Path) : Except FileFault String :=
  match v.find p with
  | .error fault => .error fault
  | .ok .directory => .error .isDirectory
  | .ok (.vacancy _) => .error .missing
  | .ok (.device _) => .ok ""
  | .ok (.file _ content) =>
    match String.fromUTF8? content with
    | some text => .ok text
    | none => .error .notText

/-- Puts a file at a location. -/
def put (v : Volume) (location : List String) (content : ByteArray) : Volume :=
  { v with entries := (location, .file content) :: v.entries.filter fun (l, _) => l != location }

/-- Writes to a device. -/
def send (v : Volume) (device : Device) (text : String) : Volume :=
  match device with
  | .void => v
  | .output => { v with printed := v.printed ++ text }

/-- Writes a file at a path as it is spelled; a slash at its end asks for a directory. -/
def write (v : Volume) (path : String) (text : String) : Except FileFault Volume :=
  let slash := path.toList.getLast? = some '/'
  match v.find (.ofText path) with
  | .error fault => .error fault
  | .ok .directory => .error .isDirectory
  | .ok (.device device) =>
    if slash then .error .notDirectory else .ok (v.send device text)
  | .ok (.vacancy location) =>
    if slash then .error .isDirectory else .ok (v.put location text.toUTF8)
  | .ok (.file location _) =>
    if slash then .error .notDirectory else .ok (v.put location text.toUTF8)

/-- The paths of all files and of the empty device, normalized. -/
def paths (v : Volume) : List Path :=
  .ofText "/dev/null" :: v.entries.map fun (l, _) => ⟨false, l.map Segment.name⟩

/-- The files of a volume, under their normalized paths. -/
def host (v : Volume) : Host where
  read p :=
    match v.read p with
    | .ok text => if p ∈ v.paths then .ok text else .error .missing
    | .error fault => .error fault
  readable := v.paths
  mem_readable p text h := by
    by_cases known : p ∈ v.paths
    · exact known
    · simp only [known, if_false] at h
      split at h <;> simp at h

end Volume

end Dartify
