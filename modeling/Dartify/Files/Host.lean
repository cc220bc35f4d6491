import Dartify.Files.Path

/-! Reading files. -/
namespace Dartify

/-- Why a file cannot be read or written. -/
inductive FileFault where
  | missing
  | isDirectory
  | notDirectory
  | nameTooLong
  /-- The character of code zero in a path. -/
  | nulInPath
  | notText
  | other (reason : String)
deriving DecidableEq, Inhabited

def FileFault.message : FileFault → String
  | missing => "No such file or directory (os error 2)"
  | isDirectory => "Is a directory (os error 21)"
  | notDirectory => "Not a directory (os error 20)"
  | nameTooLong => "File name too long (os error 36)"
  | nulInPath => "file name contained an unexpected NUL byte"
  | notText => "stream did not contain valid UTF-8"
  | other reason => reason

/-- What answers requests to read files. It can read finitely many of them. -/
structure Host where
  read : Path → Except FileFault String
  /-- All paths that can be read. -/
  readable : List Path
  mem_readable : ∀ p text, read p = .ok text → p ∈ readable

namespace Host

/-- The answer recorded for a path; an unrecorded file is missing. -/
def lookUp (p : Path) : List (Path × Except FileFault String) → Except FileFault String
  | [] => .error .missing
  | (q, answer) :: rest => if q = p then answer else lookUp p rest

theorem mem_of_lookUp {p : Path} {text : String} {answers : List (Path × Except FileFault String)}
    (h : lookUp p answers = .ok text) : p ∈ answers.map (·.1) := by
  induction answers with
  | nil => simp [lookUp] at h
  | cons a answers ih =>
    obtain ⟨q, answer⟩ := a
    by_cases same : q = p
    · simp [same]
    · simp only [lookUp, same, if_false] at h
      simp [ih h]

/-- A host with recorded answers, the first of which counts. -/
def ofAnswers (answers : List (Path × Except FileFault String)) : Host where
  read p := lookUp p answers
  readable := answers.map (·.1)
  mem_readable _ _ h := mem_of_lookUp h

/-- A host with the given files. -/
def ofFiles (files : List (Path × String)) : Host :=
  ofAnswers (files.map fun (p, text) => (p, .ok text))

end Host

end Dartify
