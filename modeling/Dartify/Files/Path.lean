import Dartify.Text.Search

/-! Paths. A path is a list of segments below the root or below the working directory; slashes
that repeat or end it, and points in the middle, are no segments. -/
namespace Dartify

inductive Segment where
  /-- A single point; it only stands in front of a relative path. -/
  | current
  /-- Two points. -/
  | parent
  | name (text : String)
deriving DecidableEq, Inhabited

structure Path where
  absolute : Bool
  segments : List Segment
deriving DecidableEq, Inhabited

namespace Segment

def spelling : Segment → String
  | current => "."
  | parent => ".."
  | name text => text

/-- The segment that a stretch between slashes stands for, if any. -/
def ofPiece? (piece : List Char) : Option Segment :=
  match piece with
  | [] => none
  | ['.'] => none
  | ['.', '.'] => some parent
  | _ => some (name (String.ofList piece))

/-- One step of resolving points: two points cancel the segment before them, whatever it is. -/
def resolve (out : List Segment) : Segment → List Segment
  | current => out
  | parent => if out.isEmpty then [parent] else out.dropLast
  | name text => out ++ [name text]

end Segment

namespace Path

def empty : Path := ⟨false, []⟩

def ofText (text : String) : Path :=
  let pieces := Text.split '/' text.toList
  let leading := if pieces.head? = some ['.'] then [Segment.current] else []
  ⟨text.toList.head? = some '/', leading ++ pieces.filterMap Segment.ofPiece?⟩

def render (p : Path) : String :=
  (if p.absolute then "/" else "") ++ String.intercalate "/" (p.segments.map Segment.spelling)

/-- A path without single points, and with two points at most in front. -/
def normalize (p : Path) : Path := ⟨p.absolute, p.segments.foldl Segment.resolve []⟩

/-- The directory that holds what a path leads to. The root lies in the working directory. -/
def directory (p : Path) : Path :=
  if p.segments.isEmpty then empty else ⟨p.absolute, p.segments.dropLast⟩

/-- What a path leads to from a directory; an absolute path leads there from anywhere. -/
def join (directory p : Path) : Path :=
  if p.absolute then p
  else if directory.absolute || !directory.segments.isEmpty then
    ⟨directory.absolute, directory.segments ++ p.segments.filter (· != .current)⟩
  else p

/-- Declaration files have these letters anywhere in their path. -/
def isDeclaration (p : Path) : Bool := Text.contains ".d.ts".toList p.render.toList

end Path

end Dartify
