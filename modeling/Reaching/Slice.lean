/-
Def-use edges, and slices along them.

A slice is what can be reached from the statements on some lines, against the
edges (what may affect them) or along them (what they may affect).
-/
import Reaching.Span

namespace Reaching

/-- A value made by the statement at one span may be read by the statement at
another. -/
structure Edge where
  source : Span
  target : Span
  deriving DecidableEq, Repr, Inhabited

namespace Edge

/-- The printed form of an edge. -/
def key? (e : Edge) : Option String := do
  let source ← e.source.key?
  let target ← e.target.key?
  some (source ++ "->" ++ target)

/-- Edges are compared by their sources, then by their targets. -/
def before (a b : Edge) : Bool :=
  if a.source = b.source then decide (a.target ≤ b.target) else decide (a.source ≤ b.source)

/-- A list of edges with one more, unless it is there. -/
def insert (edges : List Edge) (e : Edge) : List Edge :=
  if edges.contains e then edges else edges ++ [e]

/-- The edges of a list in order. -/
def sort (edges : List Edge) : List Edge := edges.mergeSort before

end Edge

/-- Which way a slice follows the edges. -/
inductive Direction where
  | backward | forward
  deriving DecidableEq, Repr

def Direction.text : Direction → String
  | .backward => "backward"
  | .forward => "forward"

namespace Slice

/-- Where the edges lead from a span, one step in a direction. -/
def next (direction : Direction) (edges : List Edge) (s : Span) : List Span :=
  match direction with
  | .backward => (edges.filter fun e => e.target = s).map (·.source)
  | .forward => (edges.filter fun e => e.source = s).map (·.target)

/-- The spans at the ends of edges. -/
def endpoints (edges : List Edge) : List Span :=
  (edges.flatMap fun e => [e.source, e.target]).eraseDups

/-- The ends of edges that lie on one of some lines. -/
def seeds (edges : List Edge) (lines : List Int) : List Span :=
  (endpoints edges).filter fun s => lines.any s.containsLine

/-- Follows `step` from the waiting spans; `seen` holds those that were
followed. -/
def explore (step : Span → List Span) : Nat → List Span → List Span → List Span
  | 0, seen, _ => seen
  | _ + 1, seen, [] => seen
  | fuel + 1, seen, s :: waiting =>
    if seen.contains s then explore step fuel seen waiting
    else
      let seen := s :: seen
      explore step fuel seen (waiting ++ (step s).filter fun t => !seen.contains t)

/-- The spans that the slice from some lines holds. Each edge is followed at
most once, so no more spans wait than there are seeds and edges. -/
def spans (direction : Direction) (edges : List Edge) (lines : List Int) : List Span :=
  let start := seeds edges lines
  explore (next direction edges) (start.length + edges.length + 1) [] start

/-- The lines that some spans cover, in order. -/
def coveredLines (spans : List Span) : List Int :=
  ((spans.flatMap Span.lines).mergeSort fun a b => decide (a ≤ b)).eraseReps

/-- The lines of the slice from some lines. -/
def lines (direction : Direction) (edges : List Edge) (lines : List Int) : List Int :=
  coveredLines (spans direction edges lines)

end Slice
end Reaching
