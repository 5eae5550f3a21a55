/-
Laying out a body as a graph.

Simple statements go into the current block. A compound statement leaves only
its header there, a small statement with the header's span, and puts its parts
into blocks of their own: a test stands as an expression, the binding of a loop
target or of an item as an assignment. Definitions are single statements, their
bodies run elsewhere.

A layout is collected as a `Fragment`, a list of things that happen in the
order of the source: blocks open, statements are placed, control is passed.
Fragments are joined with `++`, and nothing in a fragment is taken back later,
so what holds of the parts holds of the whole.

Control is passed on from the end of a part without a test whether it still
can: a jump leaves its block and opens one for what follows it, so the block in
which the next statement goes is open whatever was laid out before
(`Lies.isOpen`, by `layOutAll_lies`), and the test would always hold. Nor is a
last line replaced by the first one where it is missing or zero: the statements
of a body are read from source, with lines that count from 1.
-/
import Reaching.Code.Write.Stmt
import Reaching.Graph

namespace Reaching

open Code

/-- A block that opens, with the line it starts on. -/
structure Opened where
  kind : BlockKind
  line : Int
  deriving DecidableEq, Repr

/-- A part of a layout. The blocks that open are numbered in order from the
first number that is free. -/
structure Fragment where
  opened : List Opened := []
  placed : List (BlockId × Stmt) := []
  transfers : List Transfer := []
  turned : List (BlockId × BlockKind) := []
  returns : List BlockId := []
  decisions : Nat := 0

namespace Fragment

/-- One fragment after another. -/
def append (f g : Fragment) : Fragment where
  opened := f.opened ++ g.opened
  placed := f.placed ++ g.placed
  transfers := f.transfers ++ g.transfers
  turned := f.turned ++ g.turned
  returns := f.returns ++ g.returns
  decisions := f.decisions + g.decisions

instance : Append Fragment := ⟨append⟩

/-- A block opens. -/
def opens (kind : BlockKind) (line : Int) : Fragment := { opened := [⟨kind, line⟩] }

/-- A statement is placed in a block. -/
def places (block : BlockId) (s : Stmt) : Fragment := { placed := [(block, s)] }

/-- Control passes from one block to another. -/
def passes (source target : BlockId) (kind : TransferKind) (condition : Option String := none) :
    Fragment :=
  { transfers := [⟨source, target, kind, condition⟩] }

/-- A block becomes one of another kind. -/
def turns (block : BlockId) (kind : BlockKind) : Fragment := { turned := [(block, kind)] }

/-- The body is left at the end of a block. -/
def returnsFrom (block : BlockId) : Fragment := { returns := [block] }

/-- A decision is taken. -/
def decides : Fragment := { decisions := 1 }

/-- The first number that is free after a fragment. -/
def next (f : Fragment) (fresh : BlockId) : BlockId := fresh + f.opened.length

end Fragment

/-! ## Headers -/

/-- The text of a condition. -/
def conditionText (e : Expr) : String := e.text?.getD "<condition>"

def patternText (p : Pattern) : String := p.text?.getD "<condition>"

/-- A condition that did not hold. -/
def negated (condition : String) : String := "not (" ++ condition ++ ")"

/-- A test as a statement. -/
def testHeader (e : Expr) : Stmt := .at e.span (.expr e)

def Span.startsBefore (s t : Span) : Bool :=
  s.firstLine < t.firstLine || (s.firstLine = t.firstLine && s.firstColumn < t.firstColumn)

def Span.endsBefore (s t : Span) : Bool :=
  s.lastLine < t.lastLine || (s.lastLine = t.lastLine && s.lastColumn < t.lastColumn)

/-- The smallest span over two others. -/
def Span.cover (s t : Span) : Span :=
  let first := if s.startsBefore t then s else t
  let last := if s.endsBefore t then t else s
  ⟨first.firstLine, first.firstColumn, last.lastLine, last.lastColumn⟩

/-- A value that is bound to a target, as a statement over both. -/
def bindingHeader (target : Option Expr) (value : Expr) : Stmt :=
  match target with
  | none => testHeader value
  | some t => .at (t.span.cover value.span) (.assign [t] value)

/-- The name of a handler as an expression without width at its start. -/
def handlerTarget (span : Span) (name : String) : Expr :=
  .at ⟨span.firstLine, span.firstColumn, span.firstLine, span.firstColumn⟩ (.name name)

/-- The binding of a parameter on entry. -/
def parameterBinding (p : Parameter) : Stmt :=
  .at p.span (.assign [.at p.span (.name p.name)] (.at p.span (.constant .nothing)))

/-- The line on which a list of statements starts. -/
def startLine (body : List Stmt) (default : Int) : Int :=
  match body with
  | s :: _ => s.span.firstLine
  | [] => default

/-! ## Statements -/

/-- The guard and the exit of the innermost loop. -/
structure Loop where
  guard : BlockId
  after : BlockId
  deriving DecidableEq, Repr

/-- A fragment with the block in which the next statement goes. -/
abbrev Laid := Fragment × BlockId

/-- What a loop does when it goes on and when it ends, with the conditions. -/
structure LoopLinks where
  enter : TransferKind
  enterText : Option String
  leave : TransferKind
  leaveText : Option String

/-- The links of a loop with a test. -/
def whileLinks (test : Expr) : LoopLinks :=
  ⟨.whenTrue, some (conditionText test), .whenFalse, some (negated (conditionText test))⟩

/-- The links of a loop over a value. -/
def forLinks (target iter : Expr) : LoopLinks :=
  ⟨.iterate, some (conditionText target ++ " in " ++ conditionText iter), .exhausted, none⟩

open Fragment in
/-- A loop around its parts: its body and its `else` part are laid out by the
functions given, from their first block and the first free number. -/
def layOutLoop (header : Stmt) (links : LoopLinks) (span : Span) (bodyLine : Int)
    (orelseLine : Option Int) (body orelse : Loop → BlockId → BlockId → Laid)
    (current fresh : BlockId) : Laid :=
  let guard := fresh
  let after := fresh + 1
  let bodyId := fresh + 2
  let loop : Loop := ⟨guard, after⟩
  let (b, bodyEnd) := body loop bodyId (fresh + 3)
  let open_ := decides ++ opens .loopHeader span.firstLine ++ passes current guard .unconditional
    ++ places guard header ++ opens .body span.lastLine ++ opens .loopBody bodyLine
    ++ passes guard bodyId links.enter links.enterText
    ++ b ++ passes bodyEnd guard .backEdge
  match orelseLine with
  | none => (open_ ++ passes guard after links.leave links.leaveText, after)
  | some line =>
    let orelseId := open_.next fresh
    let (o, orelseEnd) := orelse loop orelseId (orelseId + 1)
    (open_ ++ opens .body line ++ passes guard orelseId links.leave links.leaveText
      ++ o ++ passes orelseEnd after .unconditional, after)

open Fragment in
mutual

/-- A statement laid out in the current block, with blocks numbered from
`fresh`. -/
def layOut (loop : Option Loop) (current fresh : BlockId) : Stmt → Laid
  | .at span (.ifElse test body orelse) =>
    let thenId := fresh
    let merge := fresh + 1
    let (b, bodyEnd) := layOutAll loop thenId (fresh + 2) body
    let open_ := decides ++ places current (testHeader test) ++ turns current .branch
      ++ opens .body (startLine body span.firstLine)
      ++ passes current thenId .whenTrue (some (conditionText test))
      ++ opens .body span.lastLine ++ b ++ passes bodyEnd merge .unconditional
    let otherwise := some (negated (conditionText test))
    match orelse with
    | [] => (open_ ++ passes current merge .whenFalse otherwise, merge)
    | s :: rest =>
      let elseId := open_.next fresh
      let (o, elseEnd) := layOutAll loop elseId (elseId + 1) (s :: rest)
      (open_ ++ opens .body s.span.firstLine ++ passes current elseId .whenFalse otherwise
        ++ o ++ passes elseEnd merge .unconditional, merge)
  | .at span (.whileLoop test body orelse) =>
    layOutLoop (testHeader test) (whileLinks test) span (startLine body span.firstLine)
      (orelse.head?.map (·.span.firstLine))
      (fun inner c f => layOutAll (some inner) c f body)
      (fun _ c f => layOutAll loop c f orelse) current fresh
  | .at span (.forLoop _ target iter body orelse) =>
    layOutLoop (bindingHeader (some target) iter) (forLinks target iter) span
      (startLine body span.firstLine) (orelse.head?.map (·.span.firstLine))
      (fun inner c f => layOutAll (some inner) c f body)
      (fun _ c f => layOutAll loop c f orelse) current fresh
  | .at _ (.withItems _ items body) =>
    let headers := items.foldl (fun f i => f ++ places current (bindingHeader i.target i.context)) {}
    let (b, bodyEnd) := layOutAll loop current fresh body
    (headers ++ b, bodyEnd)
  | .at span (.tryBlock _ body handlers orelse finalbody) =>
    let bodyId := fresh
    let (b, bodyEnd) := layOutAll loop bodyId (fresh + 1) body
    let start := opens .body (startLine body span.firstLine)
      ++ passes current bodyId .unconditional ++ b
    let after := start.next fresh
    let opened := start ++ opens .body span.lastLine
    let hs := layOutHandlers loop current bodyEnd after (after + 1) handlers
    let handled := opened ++ hs
    let joined :=
      match orelse with
      | [] => handled ++ passes bodyEnd after .unconditional
      | s :: rest =>
        let elseId := handled.next fresh
        let (o, elseEnd) := layOutAll loop elseId (elseId + 1) (s :: rest)
        handled ++ opens .body s.span.firstLine ++ passes bodyEnd elseId .unconditional
          ++ o ++ passes elseEnd after .unconditional
    let (f, finalEnd) := layOutAll loop after (joined.next fresh) finalbody
    (joined ++ f, finalEnd)
  | .at span (.matchCases subject cases) =>
    let after := fresh
    let cs := layOutCases loop current after (fresh + 1) cases
    (places current (testHeader subject) ++ turns current .branch ++ opens .body span.lastLine
      ++ cs ++ passes current after .whenFalse, after)
  | .at span (.ret value) =>
    (places current (.at span (.ret value)) ++ turns current .ret ++ returnsFrom current
      ++ opens .body span.firstLine, fresh)
  | .at span .breakLoop =>
    match loop with
    | some l => (passes current l.after .breakOut ++ opens .body span.firstLine, fresh)
    | none => ({}, current)
  | .at span .continueLoop =>
    match loop with
    | some l => (passes current l.guard .continueLoop ++ opens .body span.firstLine, fresh)
    | none => ({}, current)
  | .at span form => (places current (.at span form), current)

/-- Statements one after another. -/
def layOutAll (loop : Option Loop) (current fresh : BlockId) : List Stmt → Laid
  | [] => ({}, current)
  | s :: rest =>
    let (f, last) := layOut loop current fresh s
    let (g, last) := layOutAll loop last (f.next fresh) rest
    (f ++ g, last)

/-- The handlers of a `try` statement, entered from the block before it and
from the end of its body. -/
def layOutHandlers (loop : Option Loop) (before bodyEnd after fresh : BlockId) :
    List Handler → Fragment
  | [] => {}
  | .at span type name body :: rest =>
    let condition := type.map conditionText
    let header := match type with
      | none => {}
      | some t => places fresh (bindingHeader (name.map (handlerTarget span)) t)
    let (b, bodyEnd') := layOutAll loop fresh (fresh + 1) body
    let f := decides ++ opens .handler span.firstLine ++ passes before fresh .error condition
      ++ passes bodyEnd fresh .error condition ++ header ++ b
      ++ passes bodyEnd' after .unconditional
    f ++ layOutHandlers loop before bodyEnd after (f.next fresh) rest

/-- The cases of a `match` statement, entered from the block of the subject. -/
def layOutCases (loop : Option Loop) (branch after fresh : BlockId) : List Case → Fragment
  | [] => {}
  | .of p _ body :: rest =>
    let (b, bodyEnd) := layOutAll loop fresh (fresh + 1) body
    let f := decides ++ opens .body p.span.firstLine
      ++ passes branch fresh .case (some (patternText p)) ++ b
      ++ passes bodyEnd after .unconditional
    f ++ layOutCases loop branch after (f.next fresh) rest

end

/-! ## Graphs -/

/-- The blocks from which control passes to a block, each once. -/
def predecessors (transfers : List Transfer) (id : BlockId) : List BlockId :=
  ((transfers.filter fun t => t.target = id).map (·.source)).eraseDups

/-- The blocks to which control passes from a block, each once. -/
def successors (transfers : List Transfer) (id : BlockId) : List BlockId :=
  ((transfers.filter fun t => t.source = id).map (·.target)).eraseDups

namespace Fragment

/-- The kind of a block that opened as one kind: the one it last turned into. -/
def kindOf (f : Fragment) (id : BlockId) (kind : BlockKind) : BlockKind :=
  ((f.turned.filter fun t => t.1 = id).getLast?.map (·.2)).getD kind

/-- The statements placed in a block. -/
def statementsOf (f : Fragment) (id : BlockId) : List Stmt :=
  (f.placed.filter fun p => p.1 = id).map (·.2)

/-- The last line of a block: the last one of its statements, at least the line
it starts on. -/
def lastLineOf (statements : List Stmt) (line : Int) : Int :=
  statements.foldl (fun n s => max n s.span.lastLine) line

/-- The block that opened with a number. Where the body falls off its end, a
plain block is an exit. -/
def blockOf (f : Fragment) (last : BlockId) (id : BlockId) (o : Opened) : Block :=
  let kind := f.kindOf id o.kind
  let statements := f.statementsOf id
  { id := id
    kind := if id = last && kind = .body then .exit else kind
    firstLine := o.line
    lastLine := lastLineOf statements o.line
    statements := statements.map some
    preds := predecessors f.transfers id
    succs := successors f.transfers id }

/-- The graph of a whole layout that ends in the block `last`. -/
def toGraph (f : Fragment) (name : String) (last : BlockId) : Graph where
  name := name
  blocks := f.opened.zipIdx.map fun (o, i) => f.blockOf last i o
  transfers := f.transfers
  entry := 0
  exits := f.returns ++ [last]
  complexity := f.decisions + 1

end Fragment

open Fragment in
/-- The graph of a body that starts on a line, with bindings on entry. -/
def Graph.ofBody (name : String) (line : Int) (bindings body : List Stmt) : Graph :=
  let entry := bindings.foldl (fun f s => f ++ places 0 s) (opens .entry line)
  let (f, last) := layOutAll none 0 1 body
  (entry ++ f).toGraph name last

/-- The graph of module-level code. -/
def Graph.ofModule (m : Module) : Graph :=
  Graph.ofBody "<module>" (startLine m.body 1) [] m.body

/-- The graph of a function, if a statement is one. -/
def Graph.ofFunction? (s : Stmt) : Option Graph :=
  match s.form with
  | .function _ name ps body _ _ =>
    some (Graph.ofBody name s.span.firstLine (ps.inOrder.map parameterBinding) body)
  | _ => none

/-- The function of a given name, if a node is that. -/
def Code.Node.function? (name : String) : Node → Option Stmt
  | .stmt s =>
    match s.form with
    | .function _ id .. => if id = name then some s else none
    | _ => none
  | _ => none

/-- No function has the name that was asked for. -/
structure FunctionNotFound where
  name : String
  deriving DecidableEq, Repr

def FunctionNotFound.message (e : FunctionNotFound) : String :=
  "Function '" ++ e.name ++ "' not found in source"

/-- The graph of module-level code, or of the first function of a name level by
level. -/
def Graph.of (m : Module) (function : Option String) : Except FunctionNotFound Graph :=
  match function with
  | none => .ok (Graph.ofModule m)
  | some name =>
    match (Node.module m).breadthFirst.findSome? (Node.function? name) with
    | some s => .ok ((Graph.ofFunction? s).getD default)
    | none => .error ⟨name⟩

end Reaching
