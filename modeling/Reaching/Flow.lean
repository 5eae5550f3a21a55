/-
Reaching definitions over a graph, and the def-use edges found on the way.

A block's incoming definitions are its own last result merged with those of
the blocks before it. Its statements are replayed over them in order: every
definition whose name a statement reads gives an edge, then the statement's
definitions replace those of the same names. A block whose result changes puts
the blocks after it back on the list of those to visit.

One visit is the function `visit`; everything else repeats it. The analysis
may be stopped after a number of visits and called again, and it starts each
time with all blocks waiting. Without a budget it is given `visitBound` visits.
-/
import Reaching.Effect
import Reaching.Graph
import Reaching.Slice

namespace Reaching

/-! ## Replaying statements -/

namespace Effect

/-- The definitions after a statement: those of names that it does not define,
and its own. -/
def apply (e : Effect) (ds : Definitions) : Definitions :=
  Definitions.union (ds.filter fun d => !e.definitions.any fun f => f.name = d.name) e.definitions

/-- The edges from definitions to a statement that reads their names. -/
def edges (e : Effect) (ds : Definitions) : List Edge :=
  (ds.filter fun d => e.uses.contains d.name).map fun d => ⟨d.owner.span, e.span⟩

end Effect

/-- The definitions after some statements. -/
def outgoing (effects : List Effect) (ds : Definitions) : Definitions :=
  effects.foldl (fun ds e => e.apply ds) ds

/-- The edges to some statements, each from the definitions in front of it. -/
def edgesAlong : List Effect → Definitions → List Edge
  | [], _ => []
  | e :: rest, ds => e.edges ds ++ edgesAlong rest (e.apply ds)

/-! ## States -/

/-- A block as the analysis sees it. -/
structure Site where
  id : BlockId
  effects : List Effect
  preds : List BlockId
  succs : List BlockId

/-- The blocks of a graph, with the effects of their statements. -/
def Graph.sites (g : Graph) (rules : Rules) : List Site :=
  g.blocks.map fun b => ⟨b.id, b.statements.map (Effect.of rules), b.preds, b.succs⟩

/-- What an analysis has found so far: the definitions at the end of every
block, by number, the edges, the imported names, and the lines of declarations
that were passed over, as often as they were met. -/
structure Session where
  records : List (BlockId × Definitions)
  edges : List Edge := []
  modules : List String := []
  discarded : List Int := []
  visits : Nat := 0

/-- An analysis that has not begun. -/
def Session.fresh (sites : List Site) : Session :=
  { records := (sites.map (·.id)).eraseDups.map fun id => (id, []) }

namespace Session

/-- The definitions at the end of the block with a number. -/
def record? (s : Session) (id : BlockId) : Option Definitions :=
  (s.records.find? fun r => r.1 = id).map (·.2)

/-- The definitions at the end of a block, none for a number without block. -/
def record (s : Session) (id : BlockId) : Definitions := (s.record? id).getD []

/-- The definitions at the end of a block replaced. -/
def setRecord (s : Session) (id : BlockId) (ds : Definitions) : Session :=
  { s with records := s.records.map fun r => if r.1 = id then (id, ds) else r }

/-- A list of names with one more, unless it is there. -/
def insertName (names : List String) (name : String) : List String :=
  if names.contains name then names else names ++ [name]

/-- What a replay of statements over definitions adds to the findings. -/
def note (s : Session) (effects : List Effect) (ds : Definitions) : Session :=
  { s with
    edges := (edgesAlong effects ds).foldl Edge.insert s.edges
    modules := (effects.flatMap (·.imports)).foldl insertName s.modules
    discarded := s.discarded ++ effects.flatMap (·.discarded)
    visits := s.visits + 1 }

/-- The definitions at the top of a block: its own record, then those of the
blocks before it. -/
def incoming (s : Session) (site : Site) : Except UnknownBlock Definitions :=
  site.preds.foldlM (fun ds id =>
    match s.record? id with
    | some es => .ok (ds.union es)
    | none => .error ⟨id⟩) (s.record site.id)

end Session

/-! ## Visiting blocks -/

/-- The place of the last block with a number. -/
def position? (sites : List Site) (id : BlockId) : Option Nat :=
  ((sites.zipIdx.filter fun (site, _) => site.id = id).getLast?).map (·.2)

/-- Blocks that wait, with some more that do not wait yet. Blocks wait by their
places; the last to come is the first to be visited. -/
def enqueue (sites : List Site) (waiting : List Nat) (ids : List BlockId) :
    Except UnknownBlock (List Nat) :=
  ids.foldlM (fun waiting id =>
    match position? sites id with
    | some p => .ok (if waiting.contains p then waiting else p :: waiting)
    | none => .error ⟨id⟩) waiting

/-- One visit of a block, while others wait. -/
def visit (sites : List Site) (site : Site) (s : Session) (waiting : List Nat) :
    Except UnknownBlock (Session × List Nat) := do
  let start ← s.incoming site
  let ds := outgoing site.effects start
  let noted := s.note site.effects start
  if ds.sameAs (s.record site.id) then .ok (noted, waiting)
  else
    let waiting ← enqueue sites waiting site.succs
    .ok (noted.setRecord site.id ds, waiting)

/-- Visits blocks as long as some wait, up to a number of visits. -/
def visitUpTo (sites : List Site) : Nat → Session → List Nat →
    Except UnknownBlock (Session × List Nat)
  | 0, s, waiting => .ok (s, waiting)
  | _ + 1, s, [] => .ok (s, [])
  | n + 1, s, p :: waiting =>
    match sites[p]? with
    | none => visitUpTo sites n s waiting
    | some site => do
      let (s, waiting) ← visit sites site s waiting
      visitUpTo sites n s waiting

/-- The sum of a measure over a list. -/
def total {α : Type} (measure : α → Nat) (items : List α) : Nat :=
  items.foldr (fun a sum => measure a + sum) 0

/-- More visits than an analysis without a budget can make. A record only grows
while one block writes it, and a block whose number another one shares is
visited once. -/
def visitBound (sites : List Site) (s : Session) : Nat :=
  let blocks := sites.length
  let links := total (fun site => site.succs.length) sites
  let made := total (fun site => total (fun e => e.definitions.length) site.effects) sites
  let recorded := total (fun r => r.2.length) s.records
  blocks + links * (2 * blocks + 2) * (made + recorded + 1)

/-- How a call of the analysis ended: the visits it made, and whether its budget
was used up while blocks still waited. -/
structure Outcome where
  visits : Nat
  isCut : Bool
  deriving DecidableEq, Repr

/-- The number of visits that a budget allows; none are allowed by a negative
one. -/
def visitLimit (sites : List Site) (budget : Option Int) (s : Session) : Nat :=
  match budget with
  | some n => n.toNat
  | none => visitBound sites s

/-- One call of the analysis from a state. -/
def analyze (sites : List Site) (budget : Option Int) (s : Session) :
    Except UnknownBlock (Session × Outcome) := do
  let limit := visitLimit sites budget s
  let (after, waiting) ← visitUpTo sites limit s (List.range sites.length)
  .ok (after, ⟨after.visits - s.visits, budget.isSome && !waiting.isEmpty⟩)

/-- The warning for a call that was cut short. -/
def Outcome.warning (o : Outcome) (name : String) : String :=
  s!"Dataflow analysis of {name} stopped after {o.visits} block visits without converging"

end Reaching
