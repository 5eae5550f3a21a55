/-
Which files of a project are left out.

A project may hold a file of patterns in its top folder; without one, a list of
patterns for environments, caches, packages and version control is used. What
the patterns cover is left to a library of patterns: it takes their lines, or
refuses them. Of a file that no pattern ignores version control may still say
that it is, unless some pattern keeps it.
-/
import Reaching.Files

namespace Reaching

/-- Patterns in order: whether they ignore a path, and whether one of them keeps it. -/
structure Patterns where
  ignores : String → Bool
  keeps : String → Bool

/-- A library of patterns: it makes patterns of lines, or tells why it takes them for none. -/
abbrev PatternLibrary := List String → Except String Patterns

/-- Patterns with the file that they were read from. -/
structure Ignore where
  source : Option Path
  patterns : Patterns

/-- Why the patterns of a project could not be read. -/
inductive IgnoreError where
  | text (error : TextError)
  | pattern (message : String)
  deriving DecidableEq, Repr

def IgnoreError.message : IgnoreError → String
  | .text e => e.message
  | .pattern message => message

/-- What version control tells: whether it ignores a path, as seen from a project. Outside of a
work tree it ignores none. -/
abbrev VersionControl := Path → Path → Bool

/-- No version control. -/
def VersionControl.absent : VersionControl := fun _ _ => false

namespace Ignore

/-- The name of a file of patterns. -/
def fileName : String := ".defuseignore"

/-- The lines of a project that has no file of patterns. -/
def defaultLines : List String :=
  ["# defuse ignore patterns (gitignore syntax)", "", "# Environments and tool caches", ".venv/", "venv/",
    "env/", "__pycache__/", ".tox/", ".nox/", ".pytest_cache/", ".mypy_cache/", ".ruff_cache/", "",
    "# Packaging output", "dist/", "build/", "*.egg-info/", "", "# VCS metadata", ".git/", ".hg/", ".svn/"]

/-- The patterns of a project. -/
def load (library : PatternLibrary) (fs : Files) (project : Path) : Except IgnoreError Ignore := do
  let file := project.below [fileName]
  if fs.isFile file then
    let text ← (fs.readText file).mapError .text
    let patterns ← (library (Text.lines text)).mapError .pattern
    .ok ⟨some file, patterns⟩
  else
    let patterns ← (library defaultLines).mapError .pattern
    .ok ⟨none, patterns⟩

/-- Whether the patterns ignore a file of a project; they see its path from the project. -/
def ignores (i : Ignore) (project file : Path) : Bool :=
  i.patterns.ignores (file.relativeTo project).text

/-- Whether some pattern keeps a file of a project. -/
def keeps (i : Ignore) (project file : Path) : Bool := i.patterns.keeps (file.relativeTo project).text

/-- Whether a file of a project is left out, by the patterns or by version control. -/
def leavesOut (i : Ignore) (control : VersionControl) (project file : Path) : Bool :=
  i.ignores project file || (!i.keeps project file && control project (file.relativeTo project))

end Ignore

/-! ## The files of a project -/

/-- Whether a name is that of a source file. -/
def isSourceName (name : String) : Bool := ".py".toList.isSuffixOf name.toList

/-- The source files below a folder, in order. -/
def Files.sources (fs : Files) (project : Path) : List Path := fs.filesBelow project isSourceName

/-- The source files of a project that are analysed, of all that there are, and
the patterns that chose them. -/
structure Selection where
  project : Path
  ignore : Option Ignore
  all : List Path
  kept : List Path

namespace Selection

/-- The source files of a project, without those that are left out. -/
def of (library : PatternLibrary) (fs : Files) (project : Path) (respectIgnore : Bool)
    (control : VersionControl := .absent) : Except IgnoreError Selection := do
  let all := fs.sources project
  if respectIgnore then
    let ignore ← Ignore.load library fs project
    .ok ⟨project, some ignore, all, all.filter fun file => !ignore.leavesOut control project file⟩
  else .ok ⟨project, none, all, all⟩

/-- What is told of a selection: where its patterns come from, and how many
files they left out. -/
def log (s : Selection) : List String :=
  let source := (s.ignore.bind (·.source)).map fun file => "Using ignore patterns from " ++ file.text
  let ignored := s.all.length - s.kept.length
  source.toList ++ (if ignored = 0 then [] else
    ["Ignored " ++ toString ignored ++ " of " ++ toString s.all.length ++ " files under "
      ++ s.project.text])

end Selection
end Reaching
