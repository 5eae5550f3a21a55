/-
Paths of files and folders.

A path is kept in the form in which it is shown: no empty names, no `.`, and
no slash at its end. The name `..` stays where it is, for only the folders
that are there tell what it leads to.
-/
import Reaching.Text.Fields

namespace Reaching

/-- A path: the slashes that it starts at, if it is not relative, and names. -/
structure Path where
  anchor : String := ""
  names : List String := []
  deriving DecidableEq, Repr, Inhabited

namespace Path

/-- The slashes that a path starts at. Two are kept; more count as one. -/
def anchorOf : List Char → String
  | '/' :: '/' :: '/' :: _ => "/"
  | '/' :: '/' :: _ => "//"
  | '/' :: _ => "/"
  | _ => ""

/-- Whether a name between slashes is kept. -/
def isKept (name : List Char) : Bool := !name.isEmpty && name ≠ ['.']

/-- The path that a text writes. -/
def ofText (text : String) : Path :=
  ⟨anchorOf text.toList, ((Text.fields '/' text.toList).filter isKept).map String.ofList⟩

/-- A path as text; the folder that relative paths start from is `.`. -/
def text (p : Path) : String :=
  if p.anchor.isEmpty && p.names.isEmpty then "." else p.anchor ++ "/".intercalate p.names

/-- A path below a folder. -/
def below (p : Path) (names : List String) : Path := { p with names := p.names ++ names }

/-- What `names` has after `start`, if it starts so. -/
def namesAfter? : List String → List String → Option (List String)
  | [], names => some names
  | _ :: _, [] => none
  | a :: start, b :: names => if a = b then namesAfter? start names else none

/-- The names of a path below a folder, if it lies there. -/
def namesBelow? (folder p : Path) : Option (List String) :=
  if p.anchor = folder.anchor then
    (namesAfter? folder.names p.names).filter fun names => !names.contains ".."
  else none

/-- A path as seen from a folder; a path that is not written below the folder
stays as it is. -/
def relativeTo (p folder : Path) : Path :=
  if p.anchor = folder.anchor then
    match namesAfter? folder.names p.names with
    | some names => ⟨"", names⟩
    | none => p
  else p

/-- The folder that holds a path. Above the first folder stand further ones,
named `..`; nothing stands above an anchor. -/
def parent (p : Path) : Path :=
  match p.names.getLast? with
  | none => if p.anchor.isEmpty then p.below [".."] else p
  | some name => if name = ".." then p.below [".."] else { p with names := p.names.dropLast }

/-- Where one name leads from a place, if it is there. -/
def enter (here : Path) (name : String) : Path :=
  if name = ".." then here.parent else here.below [name]

/-- Where a path leads if every folder on it is there. -/
def target (p : Path) : Path := p.names.foldl enter { anchor := p.anchor }

/-- Whether a null byte stands in a name. -/
def hasNull (p : Path) : Bool := p.names.any fun name => name.toList.contains '\x00'

/-- Whether `..` stands in front of other names only, and not behind an anchor. -/
def isDirect (p : Path) : Bool :=
  !(if p.anchor.isEmpty then p.names.dropWhile (· = "..") else p.names).contains ".."

/-- Whether something can be at a path: it leads there without a way back, and no null byte
stands in it. -/
def isPlace (p : Path) : Bool := !p.hasNull && p.isDirect

/-- Paths in the order of their names, one name after the other. -/
def sort (paths : List Path) : List Path :=
  paths.mergeSort fun a b => !decide (b.names < a.names)

theorem namesAfter?_eq_some_iff {start names rest : List String} :
    namesAfter? start names = some rest ↔ names = start ++ rest := by
  induction start generalizing names with
  | nil => simp [namesAfter?, eq_comm]
  | cons a start ih =>
    cases names with
    | nil => simp [namesAfter?]
    | cons b names =>
      by_cases h : a = b
      · simp [namesAfter?, h, ih]
      · simp only [namesAfter?, h, if_false, List.cons_append, List.cons.injEq, reduceCtorEq,
          false_iff, not_and]
        exact fun hb => absurd hb.symm h

end Path
end Reaching
