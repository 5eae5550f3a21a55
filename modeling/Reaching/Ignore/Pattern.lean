/-
A library of patterns for paths, one to a line.

A pattern is cut at its slashes into segments. A segment stands for one name of
a path: `*` for any text without a slash, `?` for one character, `[...]` for
one character of a set, and a backslash takes the next character as it is. The
segment `**` stands for any number of folders. A pattern of one segment is
looked for at every depth, any other one from the top. A pattern that covers a
folder covers all that is below it.

A pattern becomes a list of steps through a path. A step may go on in several
ways; a path is covered if one choice leads through all steps. Of the patterns
that cover a path the last one decides whether it is ignored.
-/
import Reaching.Ignore
import Reaching.Text.Fields
import Reaching.Text.Quoted
import Reaching.Text.Ranges

namespace Reaching

/-! ## Steps -/

/-- A set of characters: those in some ranges, or all others. -/
structure CharSet where
  isNegated : Bool := false
  ranges : List (Char × Char)
  deriving DecidableEq, Repr

namespace CharSet

def has (s : CharSet) (c : Char) : Bool :=
  s.isNegated ^^ s.ranges.any fun (first, last) => first ≤ c && c ≤ last

/-- One character alone. -/
def single (c : Char) : CharSet := ⟨false, [(c, c)]⟩

/-- All characters but the slash. -/
def notSlash : CharSet := ⟨true, [('/', '/')]⟩

/-- All characters but the line feed. -/
def notBreak : CharSet := ⟨true, [('\n', '\n')]⟩

/-- All characters. -/
def all : CharSet := ⟨true, []⟩

end CharSet

/-- One step through a path. -/
inductive Step where
  /-- One character of a set. -/
  | one (set : CharSet)
  /-- Any number of characters of a set. -/
  | run (set : CharSet)
  /-- Nothing, or some text with a slash after it. -/
  | outerFolders
  /-- Nothing, or a slash with some text after it. -/
  | innerFolders
  /-- The end of the path, or a slash with anything after it. -/
  | finish
  deriving DecidableEq, Repr

namespace Step

/-- What may be left after any number of characters of a set. -/
def afterRun (set : CharSet) : List Char → List (List Char)
  | [] => [[]]
  | c :: rest => (c :: rest) :: (if set.has c then afterRun set rest else [])

def afterSlash? : List Char → Option (List Char)
  | '/' :: rest => some rest
  | _ => none

/-- What may be left of a path after a step. -/
def after : Step → List Char → List (List Char)
  | .one set, c :: rest => if set.has c then [rest] else []
  | .one _, [] => []
  | .run set, cs => afterRun set cs
  | .outerFolders, cs =>
    let beyond := match cs with
      | [] => []
      | c :: rest =>
        if CharSet.notBreak.has c then (afterRun .notBreak rest).filterMap afterSlash? else []
    cs :: beyond
  | .innerFolders, cs =>
    let beyond := match cs with
      | '/' :: c :: rest => if CharSet.notBreak.has c then afterRun .notBreak rest else []
      | _ => []
    cs :: beyond
  | .finish, cs => if cs = [] || cs = ['\n'] || cs.head? = some '/' then [[]] else []

/-- Whether some steps lead through a path or a part of it from its start. -/
def covers : List Step → List Char → Bool
  | [], _ => true
  | step :: steps, cs => (step.after cs).any (covers steps)

end Step

/-! ## Segments -/

/-- Why a segment has no meaning. -/
inductive GlobFault where
  | unclosedSet
  | escapeAtEnd
  | reversedRange (first last : Char)
  deriving DecidableEq, Repr

namespace Glob

/-- The characters and ranges between brackets. A hyphen makes a range between
two characters. -/
def ranges : List Char → Except GlobFault (List (Char × Char))
  | first :: '-' :: last :: rest =>
    if last < first then .error (.reversedRange first last)
    else (ranges rest).map ((first, last) :: ·)
  | c :: rest => (ranges rest).map ((c, c) :: ·)
  | [] => .ok []

/-- The text up to a closing bracket and the text after it. A bracket that comes
first does not close. -/
def closed? (cs : List Char) : Option (List Char × List Char) :=
  let (first, cs) := match cs with
    | ']' :: rest => ([']'], rest)
    | cs => ([], cs)
  match cs.dropWhile (· ≠ ']') with
  | _ :: after => some (first ++ cs.takeWhile (· ≠ ']'), after)
  | [] => none

theorem closed?_length {cs inside after : List Char} (h : closed? cs = some (inside, after)) :
    after.length < cs.length := by
  unfold closed? at h
  split at h
  rename_i first rest hsplit
  have hrest : rest.length ≤ cs.length := by
    split at hsplit <;> (cases hsplit; simp)
  split at h
  · rename_i hd c tail hdrop
    simp only [Option.some.injEq, Prod.mk.injEq] at h
    have hlen : (rest.dropWhile (· ≠ ']')).length ≤ rest.length :=
      (List.dropWhile_sublist _).length_le
    rw [hdrop] at hlen
    simp only [List.length_cons] at hlen
    rw [← h.2]
    omega
  · simp at h

/-- A set after its opening bracket, with the text after it. -/
def set (cs : List Char) : Except GlobFault (CharSet × { after : List Char // after.length < cs.length }) :=
  match cs with
  | [] => .error .unclosedSet
  | c :: rest =>
    if c = '!' || c = '^' then
      match h : closed? rest with
      | none => .error .unclosedSet
      | some (inside, after) =>
        (ranges inside).map fun list => (⟨true, list⟩, ⟨after, Nat.lt_succ_of_lt (closed?_length h)⟩)
    else
      match h : closed? (c :: rest) with
      | none => .error .unclosedSet
      | some (inside, after) =>
        (ranges inside).map fun list => (⟨false, list⟩, ⟨after, closed?_length h⟩)

/-- The steps through a name that a segment stands for. -/
def steps : List Char → Except GlobFault (List Step)
  | [] => .ok []
  | ['\\'] => .error .escapeAtEnd
  | '\\' :: c :: rest => (steps rest).map (.one (.single c) :: ·)
  | '*' :: rest => (steps rest).map (.run .notSlash :: ·)
  | '?' :: rest => (steps rest).map (.one .notSlash :: ·)
  | '[' :: rest => do
    let (set, ⟨after, _⟩) ← set rest
    (steps after).map (.one set :: ·)
  | c :: rest => (steps rest).map (.one (.single c) :: ·)
termination_by cs => cs.length
decreasing_by all_goals simp_all <;> omega

end Glob

/-! ## Lines -/

/-- One part of a pattern between slashes. -/
inductive Segment where
  | anyFolders
  | anyName
  | name (text : List Char)
  deriving DecidableEq, Repr

namespace Segment

def ofText (cs : List Char) : Segment :=
  if cs = ['*', '*'] then .anyFolders else if cs = ['*'] then .anyName else .name cs

/-- Segments without any `**` that follows another one. -/
def collapse : List Segment → List Segment
  | .anyFolders :: .anyFolders :: rest => collapse (.anyFolders :: rest)
  | segment :: rest => segment :: collapse rest
  | [] => []

/-- The steps through one name. -/
def nameSteps : Segment → Except GlobFault (List Step)
  | .anyName => .ok [.one .notSlash, .run .notSlash]
  | .name text => Glob.steps text
  | .anyFolders => .ok []

/-- The steps through the segments after the first one; `slash` tells whether a
slash stands before the next name. -/
def stepsAfter (slash : Bool) : List Segment → Except GlobFault (List Step)
  | [] => .ok []
  | [.anyFolders] => .ok [.one (.single '/')]
  | .anyFolders :: rest => (stepsAfter true rest).map (.innerFolders :: ·)
  | segment :: rest => do
    let here ← segment.nameSteps
    let more ← stepsAfter true rest
    let before := if slash then [Step.one (.single '/')] else []
    .ok (before ++ here ++ (if rest.isEmpty then [.finish] else more))

/-- The steps through all segments. A `**` in front stands for any folders that a
path starts with. Where nothing but `**` and `*` is left, everything is
covered, or everything below a folder. -/
def steps (isFolder : Bool) : List Segment → Except GlobFault (List Step)
  | [.anyFolders] => .ok (if isFolder then belowFolder else [])
  | [.anyFolders, .anyName] => .ok []
  | [.anyFolders, .anyName, .anyFolders] => .ok belowFolder
  | .anyFolders :: rest => (stepsAfter false rest).map (.outerFolders :: ·)
  | segments => stepsAfter false segments
where
  belowFolder : List Step := [.run .all, .one (.single '/')]

end Segment

/-- A pattern: whether the paths that it covers are ignored or kept, and its
steps. -/
structure Pattern where
  ignores : Bool
  steps : List Step
  deriving DecidableEq, Repr

/-- Why a line is not a pattern: it has no segment, or its last character is a
backslash, or a range in it is reversed. -/
inductive PatternError where
  | invalid (line : String)
  | reversedRange (first last : Char)
  deriving DecidableEq, Repr

def PatternError.message : PatternError → String
  | .invalid line => "Invalid git pattern: " ++ Text.quoted line
  | .reversedRange first last => "bad character range " ++ first.toString ++ "-" ++ last.toString

namespace Pattern

/-- A line without the blanks at its end, unless the last one is escaped. -/
def trimmed (cs : List Char) : List Char :=
  if [' ', '\\'].isPrefixOf cs.reverse then cs else Text.trimRight cs

/-- The segments of a pattern: one that stands alone is looked for in all
folders, and a slash at the end stands for all that is below. -/
def segments (cs : List Char) : List Segment :=
  let parts := Text.fields '/' cs
  let parts := match parts with
    | [] :: rest => rest
    | [part] => if part = ['*', '*'] then [part] else [['*', '*'], part]
    | [part, []] => if part = ['*', '*'] then [part, []] else [['*', '*'], part, []]
    | parts => parts
  let parts := match parts.getLast? with
    | some [] => parts.dropLast ++ [['*', '*']]
    | _ => parts
  Segment.collapse (parts.map Segment.ofText)

/-- The pattern after the mark for kept paths was taken off. -/
def ofBody (line : String) (ignores : Bool) (body : List Char) : Except PatternError (Option Pattern) :=
  match segments body with
  | [] => .error (.invalid line)
  | list =>
    match Segment.steps (body.getLast? = some '/' || body.isEmpty) list with
    | .ok steps => .ok (some ⟨ignores, steps⟩)
    | .error .unclosedSet => .ok none
    | .error .escapeAtEnd => .error (.invalid line)
    | .error (.reversedRange first last) => .error (.reversedRange first last)

/-- The pattern of a line, if it has one: a blank line, a comment, a slash alone
and a set that is not closed say nothing. -/
def ofLine (line : String) : Except PatternError (Option Pattern) :=
  match trimmed line.toList with
  | [] => .ok none
  | ['/'] => .ok none
  | '#' :: _ => .ok none
  | '!' :: body => ofBody line false body
  | body => ofBody line true body

/-- Whether a pattern covers a path. -/
def covers (p : Pattern) (path : String) : Bool :=
  let cs := path.toList
  Step.covers p.steps (match cs with
    | '/' :: rest => rest
    | '.' :: '/' :: rest => rest
    | cs => cs)

/-- The patterns of some lines. -/
def library : PatternLibrary := fun lines =>
  match lines.mapM ofLine with
  | .error e => .error e.message
  | .ok found =>
    let patterns := found.filterMap id
    .ok {
      ignores := fun path => (patterns.reverse.find? (·.covers path)).any (·.ignores)
      keeps := fun path => patterns.any fun p => !p.ignores && p.covers path }

end Pattern
end Reaching
