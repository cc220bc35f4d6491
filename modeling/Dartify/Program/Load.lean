import Dartify.Files.Host
import Dartify.Log.Event
import Dartify.Program.Reference
import Dartify.Tree.Reading

/-! Loading a program: its roots and all that they refer to. A file comes behind the files that
it refers to, and comes once, whatever the ways to it. -/
namespace Dartify

/-- The source files of a program in the order in which they are written, and its declaration
files, which are not read. -/
structure Program where
  files : List Tree
  declarations : List Path
deriving Inhabited

namespace Program

inductive LoadError where
  | unreadable (path : Path) (cause : FileFault)
  /-- The text of a file has no tree. -/
  | rejected (file : String) (cause : SyntaxFault)
  /-- References nest deeper than there are files. -/
  | nesting
deriving DecidableEq, Inhabited

/-- What has been met and loaded so far. -/
structure Loading where
  seen : List Path
  files : Array Tree
  declarations : Array Path
  events : Array Log.Event
deriving Inhabited

def Loading.start : Loading := ⟨[], #[], #[], #[]⟩

/-- Loading keeps what was told before it failed. -/
abbrev Load := ExceptT LoadError (StateM Loading)

namespace Load

def tell (e : Log.Event) : Load Unit := modify fun l => { l with events := l.events.push e }

/-- Marks a path as met, and says whether it is new. -/
def meet (path : Path) : Load Bool := do
  if (← get).seen.contains path then return false
  modify fun l => { l with seen := path :: l.seen }
  return true

def declare (path : Path) : Load Unit :=
  modify fun l => { l with declarations := l.declarations.push path }

def add (file : Tree) : Load Unit := modify fun l => { l with files := l.files.push file }

end Load

open Load

/-- The path that a reference leads to from a file. -/
def target (path : Path) (reference : String) : Path :=
  (path.directory.join (.ofText reference)).normalize

/-- Loads what a file refers to, and then the file, given how to visit a path. -/
def enter (visit : Path → Load Unit) (path : Path) (text : String) : Load Unit := do
  (Reference.paths text.toList).forM fun reference => do
    tell (.reference path reference)
    visit (target path reference)
  tell (.parsing path)
  match Tree.ofText path.render text.toList with
  | .ok file => add file
  | .error cause => throw (.rejected path.render cause)

/-- Visits a path, unless it was met before. Only a root must be readable. -/
def visit (host : Host) : Nat → Bool → Path → Load Unit
  | 0, _, _ => throw .nesting
  | depth + 1, isRoot, path => do
    if !(← meet path) then return
    if path.isDeclaration then
      tell (.declarationFile path)
      declare path
    else
      match host.read path with
      | .ok text => enter (visit host depth false) path text
      | .error cause =>
        if isRoot then throw (.unreadable path cause) else tell (.unreadableReference path cause)

/-- Every visit on the way to another has read a file of its own. -/
def depthLimit (host : Host) : Nat := host.readable.length + 1

def visitRoots (host : Host) (roots : List Path) : Load Unit := do
  roots.forM fun root => visit host (depthLimit host) true root.normalize
  let l ← get
  tell (.loaded l.files.size l.declarations.size)

/-- A program, and what loading it told. -/
def load (host : Host) (roots : List Path) : Except LoadError Program × List Log.Event :=
  let (result, l) := ((visitRoots host roots).run).run Loading.start
  (result.map fun _ => ⟨l.files.toList, l.declarations.toList⟩, l.events.toList)

end Program

end Dartify
