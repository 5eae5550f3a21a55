/-
Spans of source text and their keys.

A span identifies a statement, a definition or an end of a def-use edge, so
everything that has to be told apart or compared in the analysis is compared
by its span. The key is the one printed form of a span; spans are ordered by
their four numbers, first line first. A span with an integer of too many digits
has no key.

A tree node read from source always has a span. A node made by hand may lack
some of its four position attributes; `Extent` holds what it has, and an end
that is missing is the start. Another fallback is left out: where only the last
line of a statement is asked for, one that is missing or zero would be its
first line. The statements of a graph are read from source and have both.
-/
import Reaching.Text.Integer

namespace Reaching

/-- A stretch of source text. Lines count from 1 and columns from 0, in UTF-8
bytes; a span made by hand may hold any integers. -/
structure Span where
  firstLine : Int
  firstColumn : Int
  lastLine : Int
  lastColumn : Int
  deriving DecidableEq, Repr, Inhabited

namespace Span

/-- The span of a node whose position is not known. -/
def unknown : Span := ⟨0, 0, 0, 0⟩

/-- The four numbers of a span, in the order in which spans are compared. -/
def numbers (s : Span) : List Int :=
  [s.firstLine, s.firstColumn, s.lastLine, s.lastColumn]

instance : LT Span := ⟨fun s t => s.numbers < t.numbers⟩

instance : LE Span := ⟨fun s t => ¬ t < s⟩

instance (s t : Span) : Decidable (s < t) := inferInstanceAs (Decidable (s.numbers < t.numbers))

instance (s t : Span) : Decidable (s ≤ t) := inferInstanceAs (Decidable (¬ t < s))

/-- Whether a line lies between the first and the last line of a span. -/
def containsLine (s : Span) (line : Int) : Bool :=
  decide (s.firstLine ≤ line) && decide (line ≤ s.lastLine)

theorem containsLine_iff {s : Span} {line : Int} :
    s.containsLine line = true ↔ s.firstLine ≤ line ∧ line ≤ s.lastLine := by
  simp [containsLine]

/-- The lines of a span, in order; none if the span is reversed. -/
def lines (s : Span) : List Int :=
  (List.range (s.lastLine + 1 - s.firstLine).toNat).map fun (i : Nat) => s.firstLine + i

theorem mem_lines {s : Span} {line : Int} :
    line ∈ s.lines ↔ s.firstLine ≤ line ∧ line ≤ s.lastLine := by
  simp only [lines, List.mem_map, List.mem_range]
  constructor
  · rintro ⟨i, hi, rfl⟩; omega
  · intro h; exact ⟨(line - s.firstLine).toNat, by omega, by omega⟩

/-- The spans of a list in span order. -/
def sort (spans : List Span) : List Span :=
  spans.mergeSort fun s t => decide (s ≤ t)

end Span

/-! ## Keys -/

/-- Which columns of a span were given as truth values. Such a column counts as one
or zero and is printed as it was given. -/
structure TruthColumns where
  first : Bool := false
  last : Bool := false
  deriving DecidableEq, Repr, Inhabited

/-- A column as it was given. -/
def columnText? (isTruth : Bool) (column : Int) : Option String :=
  if isTruth then some (if column = 0 then "False" else "True") else Text.decimal? column

/-- The printed form of a span, `first_line:first_column-last_line:last_column`. -/
def Span.key? (s : Span) (truths : TruthColumns := {}) : Option String := do
  let firstLine ← Text.decimal? s.firstLine
  let firstColumn ← columnText? truths.first s.firstColumn
  let lastLine ← Text.decimal? s.lastLine
  let lastColumn ← columnText? truths.last s.lastColumn
  some (firstLine ++ ":" ++ firstColumn ++ "-" ++ lastLine ++ ":" ++ lastColumn)

/-! ## Headers -/

/-- What a definition statement introduces. -/
inductive Introduces where
  | function
  | asyncFunction
  | classType
  deriving DecidableEq, Repr

/-- The keywords in front of the name, with the space that follows them. -/
def Introduces.keyword : Introduces → String
  | .function => "def "
  | .asyncFunction => "async def "
  | .classType => "class "

/-- The span of a definition's keyword and name on the line where the
statement starts. Its end is counted in characters of the name. -/
def Span.header (start : Span) (form : Introduces) (name : String) : Span :=
  ⟨start.firstLine, start.firstColumn, start.firstLine,
    start.firstColumn + form.keyword.length + name.length⟩

/-! ## Nodes made by hand -/

/-- The position attributes that a node made by hand has. -/
structure Extent where
  firstLine : Option Int := none
  firstColumn : Option Int := none
  lastLine : Option Int := none
  lastColumn : Option Int := none
  deriving DecidableEq, Repr, Inhabited

/-- The span of a node that has a first line and a first column; an end that
is missing is the start. -/
def Extent.span? (e : Extent) : Option Span :=
  match e.firstLine, e.firstColumn with
  | some line, some column =>
    some ⟨line, column, e.lastLine.getD line, e.lastColumn.getD column⟩
  | _, _ => none

/-- The span of a node, `Span.unknown` if it has no start. -/
def Extent.span (e : Extent) : Span := e.span?.getD Span.unknown

/-- The whole of a span as position attributes. -/
def Span.extent (s : Span) : Extent :=
  ⟨some s.firstLine, some s.firstColumn, some s.lastLine, some s.lastColumn⟩

@[simp] theorem Span.extent_span (s : Span) : s.extent.span = s := rfl

end Reaching
