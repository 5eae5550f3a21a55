/-
A tree of folders and files, held as what a program can see of it: the paths of
regular files with the bytes they hold, and the paths of folders. A folder is
also there when something below it is.

Paths are looked up name by name, so that `..` leads back only from a folder
that is there. The faults of reading say what the path met.
-/
import Reaching.Files.Path
import Reaching.Text.Lines
import Reaching.Text.Quoted
import Reaching.Text.Utf8

namespace Reaching

/-- Files by their places, no place twice, and folders. -/
structure Files where
  files : List (Path × List UInt8)
  folders : List Path
  nodup : (files.map Prod.fst).Nodup
  places : ∀ file ∈ files.map Prod.fst, file.isPlace = true

/-- Why a path could not be read. -/
inductive FileFault where
  | missing
  | notFolder
  | isFolder
  | nullByte
  deriving DecidableEq, Repr

/-- Why a path could not be read, with the path. -/
structure FileError where
  fault : FileFault
  path : Path
  deriving DecidableEq, Repr

/-- The text of a fault, with the number that the system gives it. -/
def FileError.message (e : FileError) : String :=
  match e.fault with
  | .missing => "[Errno 2] No such file or directory: " ++ Text.quoted e.path.text
  | .notFolder => "[Errno 20] Not a directory: " ++ Text.quoted e.path.text
  | .isFolder => "[Errno 21] Is a directory: " ++ Text.quoted e.path.text
  | .nullByte => "embedded null byte"

namespace Files

/-- No files and no folders but the first one. -/
def empty : Files := ⟨[], [], by simp, by simp⟩

/-! ## Changing the tree -/

/-- The files without the one at a place. -/
def without (fs : Files) (place : Path) : List (Path × List UInt8) :=
  fs.files.filter fun entry => entry.1 ≠ place

theorem without_subset (fs : Files) (place : Path) :
    (fs.without place).map Prod.fst ⊆ fs.files.map Prod.fst :=
  (List.filter_sublist.map Prod.fst).subset

/-- Writes a file, in place of the one that was there. Where nothing can be, nothing is
written. -/
def write (fs : Files) (place : Path) (bytes : List UInt8) : Files :=
  if h : place.isPlace then
    { files := fs.without place ++ [(place, bytes)]
      folders := fs.folders
      nodup := by
        rw [List.map_append, List.nodup_append]
        refine ⟨(List.filter_sublist.map Prod.fst).nodup fs.nodup, by simp, ?_⟩
        intro a ha b hb hab
        obtain ⟨entry, hentry, rfl⟩ := List.mem_map.1 ha
        have hne := (List.mem_filter.1 hentry).2
        simp at hb
        simp [hab, hb] at hne
      places := by
        intro file hfile
        rw [List.map_append, List.mem_append] at hfile
        rcases hfile with hfile | hfile
        · exact fs.places file (without_subset fs place hfile)
        · rw [List.mem_singleton.1 hfile]
          exact h }
  else fs

/-- Makes a folder. -/
def makeFolder (fs : Files) (place : Path) : Files :=
  { fs with folders := place :: fs.folders }

/-! ## Looking up paths -/

/-- What the file at a place holds. -/
def bytesAt? (fs : Files) (place : Path) : Option (List UInt8) := fs.files.lookup place

/-- Whether one place is another one or lies below it. -/
def isUnder (place folder : Path) : Bool :=
  place.anchor = folder.anchor && (Path.namesAfter? folder.names place.names).isSome

/-- Whether a folder is at a place. Relative paths start from one that is always
there. -/
def isFolderAt (fs : Files) (place : Path) : Bool :=
  place = {} || fs.folders.any (isUnder · place)
    || fs.files.any fun (file, _) => file ≠ place && isUnder file place

/-- Where names lead from a place. -/
def walk (fs : Files) : Path → List String → Except FileFault Path
  | here, [] => .ok here
  | here, name :: rest =>
    if fs.isFolderAt here then
      let next := here.enter name
      if (fs.bytesAt? next).isSome || fs.isFolderAt next then walk fs next rest
      else .error .missing
    else .error .notFolder

/-- The place that a path leads to. -/
def place (fs : Files) (p : Path) : Except FileFault Path :=
  if p.hasNull then .error .nullByte
  else
    let start : Path := { anchor := p.anchor }
    if fs.isFolderAt start then walk fs start p.names else .error .missing

/-- Whether a path leads to a folder. -/
def isFolder (fs : Files) (p : Path) : Bool :=
  match fs.place p with
  | .ok place => (fs.bytesAt? place).isNone && fs.isFolderAt place
  | .error _ => false

/-- Whether a path leads to a file. -/
def isFile (fs : Files) (p : Path) : Bool :=
  match fs.place p with
  | .ok place => (fs.bytesAt? place).isSome
  | .error _ => false

/-- What the file at a path holds. -/
def read (fs : Files) (p : Path) : Except FileError (List UInt8) :=
  match fs.place p with
  | .error fault => .error ⟨fault, p⟩
  | .ok place =>
    match fs.bytesAt? place with
    | some bytes => .ok bytes
    | none => .error ⟨.isFolder, p⟩

/-- The files below the folder that a path leads to, written below that path,
those with names that pass a test. -/
def filesBelow (fs : Files) (p : Path) (test : String → Bool) : List Path :=
  match fs.place p with
  | .error _ => []
  | .ok place =>
    let found := fs.files.filterMap fun (file, _) =>
      ((place.namesBelow? file).filter (·.getLast?.any test)).map p.below
    Path.sort found

end Files

/-! ## Files as text -/

/-- Why a file could not be read as text. -/
inductive TextError where
  | file (error : FileError)
  | encoding (error : Text.Utf8Error)
  deriving DecidableEq, Repr

/-- The text of an error. -/
def TextError.message : TextError → String
  | .file e => e.message
  | .encoding e => e.message

/-- The text that a file holds in UTF-8, with every line break as a line feed. -/
def Files.readText (fs : Files) (p : Path) : Except TextError String := do
  let bytes ← (fs.read p).mapError .file
  let text ← (Text.ofUtf8 bytes).mapError .encoding
  .ok (String.ofList (Text.unifyBreaks text.toList))

end Reaching
