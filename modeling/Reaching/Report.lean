/-
The results of an analysis in JSON form. A result with a span that has no key has none.
-/
import Reaching.Code.Read.Stmt
import Reaching.Flow
import Reaching.Graph.Layout

namespace Reaching

open Code

/-! ## Parts -/

/-- A span as a JSON object. -/
def Span.toJson (s : Span) : Json :=
  .obj [("first_line", .int s.firstLine), ("first_column", .int s.firstColumn),
    ("last_line", .int s.lastLine), ("last_column", .int s.lastColumn)]

/-- A definition as a JSON object. -/
def Definition.toJson? (d : Definition) : Option Json := do
  let key ← d.key?
  some (.obj [("name", .str d.name), ("type", .str d.kind.text), ("location", .str key)])

/-- A set of definitions as a JSON array, in order. -/
def Definitions.toJson? (ds : Definitions) : Option Json := do
  let list ← ds.sorted.mapM Definition.toJson?
  some (.arr list)

/-- An edge as a JSON object. -/
def Edge.toJson? (e : Edge) : Option Json := do
  let source ← e.source.key?
  let target ← e.target.key?
  some (.obj [("from", .str source), ("to", .str target),
    ("from_line", .int e.source.firstLine), ("to_line", .int e.target.firstLine)])

/-- Names in order. -/
def sortedNames (names : List String) : List String :=
  (names.mergeSort fun a b => decide (a ≤ b)).eraseReps

/-! ## Graphs -/

def idsToJson (ids : List BlockId) : Json := .arr (ids.map .int)

/-- The members that describe a block: one line for each of its statements, if
it has any. -/
def Block.members (b : Block) : List (Text × Json) :=
  let summaries := b.statements.filterMap fun s => s.map fun s => Json.str s.summary
  [Json.entry "id" (.int b.id), Json.entry "type" (.str b.kind.text),
      Json.entry "lines" (.arr [.int b.firstLine, .int b.lastLine])]
    ++ (if summaries.isEmpty then [] else [Json.entry "statements" (.arr summaries)])

/-- A transfer as a JSON object; an empty condition is left out. -/
def Transfer.toJson (t : Transfer) : Json :=
  let condition := match t.condition with
    | some text => if text.isEmpty then [] else [Json.entry "condition" (.str text)]
    | none => []
  .obj ([Json.entry "from" (.int t.source), Json.entry "to" (.int t.target), Json.entry "type" (.str t.kind.text)]
    ++ condition)

/-- The members that describe a graph, by the members of its blocks. -/
def Graph.members (g : Graph) (block : Block → List (Text × Json)) : List (Text × Json) :=
  [("function", .str g.name), ("blocks", .arr (g.blocks.map fun b => .obj (block b))),
    ("edges", .arr (g.transfers.map Transfer.toJson)), ("entry_block", .int g.entry),
    ("exit_blocks", idsToJson g.exits), ("cyclomatic_complexity", .int g.complexity)]

/-! ## Analyses -/

/-- Why a source could not be analysed. -/
inductive AnalysisError where
  | source (error : SourceError)
  | function (error : FunctionNotFound)
  | block (error : UnknownBlock)
  deriving DecidableEq, Repr

/-- The text of an error. -/
def AnalysisError.message : AnalysisError → String
  | .source e => e.message
  | .function e => e.message
  | .block e => toString e.id

/-- A graph with what its analysis found. -/
structure Analysis where
  graph : Graph
  session : Session
  outcome : Outcome

/-- The graph of a source text. -/
def graphOf (source : String) (function : Option String) : Except AnalysisError Graph := do
  let m ← (Module.ofSource source).mapError .source
  (Graph.of m function).mapError .function

/-- The analysis of a source text without a budget. -/
def Analysis.of (source : String) (function : Option String) (rules : Rules) :
    Except AnalysisError Analysis := do
  let g ← graphOf source function
  let sites := g.sites rules
  let (session, outcome) ← (analyze sites none (Session.fresh sites)).mapError .block
  .ok ⟨g, session, outcome⟩

namespace Analysis

/-- The edges of an analysis in order. -/
def edges (a : Analysis) : List Edge := Edge.sort a.session.edges

/-- The members that describe an analysis. -/
def members? (a : Analysis) : Option (List (Text × Json)) := do
  let edges ← a.edges.mapM Edge.toJson?
  some [("function", .str a.graph.name), ("edges", .arr edges),
    ("module_names", .arr ((sortedNames a.session.modules).map fun (name : String) => .str name))]

end Analysis
end Reaching
