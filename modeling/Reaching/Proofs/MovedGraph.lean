/-
Graphs of code that was moved.

Code is moved by adding a number to every line of its spans. Such a move keeps the order of
positions, so that headers over several parts move along with their parts
(`Span.cover_moved`, `bindingHeader_moved`). Blocks and transfers are numbered without
looking at lines: part by part the layout of moved code is the moved layout
(`layOut_moved`), and the graph of moved code is the moved graph (`Graph.of_moved`). The
body of a module must not be empty for that, since an empty one always starts on line 1.
-/
import Reaching.Proofs.Region
import Reaching.Proofs.RespanText

namespace Reaching

open Code Fragment

/-! ## Spans -/

/-- A span on lines that are `k` lines further down. -/
def Span.moved (k : Int) (s : Span) : Span :=
  { s with firstLine := s.firstLine + k, lastLine := s.lastLine + k }

namespace Span

variable {k : Int}

@[simp] theorem firstLine_moved (s : Span) : (s.moved k).firstLine = s.firstLine + k := rfl

@[simp] theorem firstColumn_moved (s : Span) : (s.moved k).firstColumn = s.firstColumn := rfl

@[simp] theorem lastLine_moved (s : Span) : (s.moved k).lastLine = s.lastLine + k := rfl

@[simp] theorem lastColumn_moved (s : Span) : (s.moved k).lastColumn = s.lastColumn := rfl

@[simp] theorem moved_inj {s t : Span} : s.moved k = t.moved k ↔ s = t := by
  cases s
  cases t
  simp [moved]

theorem moved_injective : Function.Injective (moved k) := fun _ _ => moved_inj.1

theorem startsBefore_moved (s t : Span) : (s.moved k).startsBefore (t.moved k) = s.startsBefore t := by
  rw [Bool.eq_iff_iff]
  unfold startsBefore moved
  grind

theorem endsBefore_moved (s t : Span) : (s.moved k).endsBefore (t.moved k) = s.endsBefore t := by
  rw [Bool.eq_iff_iff]
  unfold endsBefore moved
  grind

/-- **The smallest span** over two others moves along with them. -/
theorem cover_moved (s t : Span) : (s.moved k).cover (t.moved k) = (s.cover t).moved k := by
  simp only [cover, startsBefore_moved, endsBefore_moved]
  cases s.startsBefore t <;> cases s.endsBefore t <;> rfl

end Span

/-! ## Headers -/

section Headers

variable {k : Int}

theorem conditionText_respan (f : Span → Span) (e : Expr) : conditionText (e.respan f) = conditionText e := by
  rw [conditionText, Expr.text?_respan, conditionText]

theorem patternText_respan (f : Span → Span) (p : Code.Pattern) : patternText (p.respan f) = patternText p := by
  rw [patternText, Pattern.text?_respan, patternText]

theorem testHeader_respan (f : Span → Span) (e : Expr) : testHeader (e.respan f) = (testHeader e).respan f := by
  rw [testHeader, Expr.span_respan]
  rfl

/-- **The header over a target and a value** moves along with both. -/
theorem bindingHeader_moved (target : Option Expr) (value : Expr) :
    bindingHeader (target.map (Expr.respan (.moved k))) (value.respan (.moved k)) =
      (bindingHeader target value).respan (.moved k) := by
  cases target with
  | none => exact testHeader_respan _ value
  | some t =>
    simp only [Option.map_some, bindingHeader, Expr.span_respan, Span.cover_moved, Stmt.respan,
      StmtForm.respan, respanExprs]

theorem parameterBinding_respan (f : Span → Span) (p : Parameter) :
    parameterBinding (p.respan f) = (parameterBinding p).respan f := by
  cases p
  rfl

theorem startLine_moved (body : List Stmt) (default : Int) :
    startLine (body.map (Stmt.respan (.moved k))) (default + k) = startLine body default + k := by
  cases body with
  | nil => rfl
  | cons s rest => simp [startLine, Stmt.span_respan]

end Headers

/-! ## Fragments -/

/-- A block that opens `k` lines further down. -/
def Opened.moved (k : Int) (o : Opened) : Opened := { o with line := o.line + k }

/-- A layout of code that is `k` lines further down. -/
def Fragment.moved (k : Int) (f : Fragment) : Fragment :=
  { f with
    opened := f.opened.map (Opened.moved k)
    placed := f.placed.map (Prod.map id (Stmt.respan (.moved k))) }

namespace Fragment

variable {k : Int}

@[simp] theorem moved_append (f g : Fragment) : (f ++ g).moved k = f.moved k ++ g.moved k := by
  show (append f g).moved k = append (f.moved k) (g.moved k)
  simp only [append, moved, List.map_append]

@[simp] theorem moved_empty : moved k {} = {} := rfl

@[simp] theorem moved_opens (kind : BlockKind) (line : Int) :
    (opens kind line).moved k = opens kind (line + k) := rfl

@[simp] theorem moved_places (block : BlockId) (s : Stmt) :
    (places block s).moved k = places block (s.respan (.moved k)) := rfl

@[simp] theorem moved_passes (source target : BlockId) (kind : TransferKind) (condition : Option String) :
    (passes source target kind condition).moved k = passes source target kind condition := rfl

@[simp] theorem moved_turns (block : BlockId) (kind : BlockKind) :
    (turns block kind).moved k = turns block kind := rfl

@[simp] theorem moved_returnsFrom (block : BlockId) : (returnsFrom block).moved k = returnsFrom block := rfl

@[simp] theorem moved_decides : decides.moved k = decides := rfl

@[simp] theorem next_moved (f : Fragment) (fresh : BlockId) : (f.moved k).next fresh = f.next fresh := by
  simp [next, moved]

theorem moved_placing (f : Fragment) (block : BlockId) (statements : List Stmt) :
    (f.placing block statements).moved k =
      (f.moved k).placing block (statements.map (Stmt.respan (.moved k))) := by
  induction statements generalizing f with
  | nil => rfl
  | cons s rest ih => exact (ih (f ++ places block s)).trans (by rw [moved_append]; rfl)

end Fragment

/-- A layout that ends in a block, of code that is `k` lines further down. -/
def Laid.moved (k : Int) (l : Laid) : Laid := (l.1.moved k, l.2)

/-! ## Statements -/

section Statements

variable {k : Int} {loop : Option Loop}

/-- The layout of some moved statements is the moved layout, wherever it stands. -/
def AllMove (k : Int) (loop : Option Loop) (body : List Stmt) : Prop :=
  ∀ {current fresh : BlockId} {b : Fragment} {last : BlockId},
    layOutAll loop current fresh body = (b, last) →
      layOutAll loop current fresh (body.map (Stmt.respan (.moved k))) = (b.moved k, last)

theorem elsePart_moved (before after fresh : BlockId) (kind : TransferKind) (text : Option String)
    {orelse : List Stmt} (horelse : AllMove k loop orelse) :
    elsePart loop before after fresh kind text (orelse.map (Stmt.respan (.moved k))) =
      (elsePart loop before after fresh kind text orelse).moved k := by
  cases orelse with
  | nil => rfl
  | cons s rest =>
    cases ho : layOutAll loop fresh (fresh + 1) (s :: rest) with
    | mk o last =>
      have ho' := horelse ho
      rw [List.map_cons] at ho' ⊢
      simp [elsePart, ho, ho', Stmt.span_respan]

theorem layOut_ifElse_moved (current fresh : BlockId) (span : Span) (test : Expr) {body orelse : List Stmt}
    (hbody : AllMove k loop body) (horelse : AllMove k loop orelse) :
    layOut loop current fresh ((Stmt.at span (.ifElse test body orelse)).respan (.moved k)) =
      (layOut loop current fresh (.at span (.ifElse test body orelse))).moved k := by
  cases hb : layOutAll loop fresh (fresh + 2) body with
  | mk b bodyEnd =>
    rw [Stmt.respan, StmtForm.respan, respanStmts_eq, respanStmts_eq, layOut_ifElse span test orelse hb,
      layOut_ifElse _ _ _ (hbody hb)]
    simp [Laid.moved, elsePart_moved, horelse, startLine_moved, testHeader_respan, conditionText_respan]

theorem layOutLoop_moved (current fresh : BlockId) (header : Stmt) (links : LoopLinks) (span : Span)
    (bodyLine : Int) {body orelse : List Stmt} (hbody : ∀ inner, AllMove k (some inner) body)
    (horelse : AllMove k loop orelse) :
    layOutLoop (header.respan (.moved k)) links (span.moved k) (bodyLine + k)
        ((orelse.map (Stmt.respan (.moved k))).head?.map (·.span.firstLine))
        (fun inner c f => layOutAll (some inner) c f (body.map (Stmt.respan (.moved k))))
        (fun _ c f => layOutAll loop c f (orelse.map (Stmt.respan (.moved k)))) current fresh =
      Laid.moved k (layOutLoop header links span bodyLine (orelse.head?.map (·.span.firstLine))
        (fun inner c f => layOutAll (some inner) c f body) (fun _ c f => layOutAll loop c f orelse)
        current fresh) := by
  cases hb : layOutAll (some ⟨fresh, fresh + 1⟩) (fresh + 2) (fresh + 3) body with
  | mk b bodyEnd =>
    rw [layOutLoop_eq header links span bodyLine orelse hb, layOutLoop_eq _ _ _ _ _ (hbody _ hb)]
    simp [Laid.moved, elsePart_moved, horelse]

theorem layOut_withItems_moved (current fresh : BlockId) (span : Span) (isAsync : Bool) (items : List WithItem)
    {body : List Stmt} (hbody : AllMove k loop body) :
    layOut loop current fresh ((Stmt.at span (.withItems isAsync items body)).respan (.moved k)) =
      (layOut loop current fresh (.at span (.withItems isAsync items body))).moved k := by
  have hheaders : (items.map (WithItem.respan (.moved k))).map (fun i => bindingHeader i.target i.context) =
      (items.map fun i => bindingHeader i.target i.context).map (Stmt.respan (.moved k)) := by
    simp only [List.map_map]
    exact List.map_congr_left fun i _ => by simp [WithItem.respan, bindingHeader_moved]
  cases hb : layOutAll loop current fresh body with
  | mk b bodyEnd =>
    rw [Stmt.respan, StmtForm.respan, respanStmts_eq, layOut_withItems span isAsync items hb,
      layOut_withItems _ _ _ (hbody hb), hheaders]
    simp [Laid.moved, moved_placing]

/-- The layout of some moved handlers is the moved layout, wherever it stands. -/
def HandlersMove (k : Int) (loop : Option Loop) (handlers : List Handler) : Prop :=
  ∀ before bodyEnd after fresh, layOutHandlers loop before bodyEnd after fresh
      (handlers.map (Handler.respan (.moved k))) =
    (layOutHandlers loop before bodyEnd after fresh handlers).moved k

theorem handlersMove_cons (span : Span) (type : Option Expr) (name : Option String) {body : List Stmt}
    {rest : List Handler} (hbody : AllMove k loop body) (hrest : HandlersMove k loop rest) :
    HandlersMove k loop (.at span type name body :: rest) := by
  intro before bodyEnd after fresh
  have hheader : ((type.map (Expr.respan (.moved k))).map
        (bindingHeader (name.map (handlerTarget (span.moved k))))).toList =
      (type.map (bindingHeader (name.map (handlerTarget span)))).toList.map (Stmt.respan (.moved k)) := by
    cases type with
    | none => rfl
    | some t =>
      have hname : name.map (handlerTarget (span.moved k)) =
          (name.map (handlerTarget span)).map (Expr.respan (.moved k)) := by cases name <;> rfl
      simp only [Option.map_some, hname, bindingHeader_moved, Option.toList_some, List.map_cons, List.map_nil]
  cases hb : layOutAll loop fresh (fresh + 1) body with
  | mk b last =>
    rw [List.map_cons, Handler.respan, respanExpr?_eq, respanStmts_eq,
      layOutHandlers_cons before bodyEnd after span type name rest hb,
      layOutHandlers_cons _ _ _ _ _ _ _ (hbody hb), hheader, hrest]
    simp [moved_placing, Option.map_map, Function.comp_def, conditionText_respan]

theorem layOut_tryBlock_moved (current fresh : BlockId) (span : Span) (isGroup : Bool)
    {body orelse finalbody : List Stmt} {handlers : List Handler} (hbody : AllMove k loop body)
    (hhandlers : HandlersMove k loop handlers) (horelse : AllMove k loop orelse)
    (hfinal : AllMove k loop finalbody) :
    layOut loop current fresh
        ((Stmt.at span (.tryBlock isGroup body handlers orelse finalbody)).respan (.moved k)) =
      (layOut loop current fresh (.at span (.tryBlock isGroup body handlers orelse finalbody))).moved k := by
  cases hb : layOutAll loop fresh (fresh + 1) body with
  | mk b bodyEnd =>
    rw [Stmt.respan, StmtForm.respan, respanStmts_eq, respanHandlers_eq, respanStmts_eq, respanStmts_eq,
      layOut_tryBlock span isGroup handlers orelse finalbody hb rfl,
      layOut_tryBlock _ _ _ _ _ (hbody hb) (next_moved ..)]
    dsimp only
    simp only [hhandlers _ _ _ _, elsePart_moved _ _ _ _ _ horelse, next_moved]
    generalize elsePart loop bodyEnd (b.next (fresh + 1)) _ .unconditional none orelse = o
    cases hf : layOutAll loop (b.next (fresh + 1)) (o.next _) finalbody with
    | mk f finalEnd =>
      rw [hfinal hf]
      simp [Laid.moved, startLine_moved]

/-- The layout of some moved cases is the moved layout, wherever it stands. -/
def CasesMove (k : Int) (loop : Option Loop) (cases : List Case) : Prop :=
  ∀ branch after fresh, layOutCases loop branch after fresh (cases.map (Case.respan (.moved k))) =
    (layOutCases loop branch after fresh cases).moved k

theorem casesMove_cons (p : Code.Pattern) (guard : Option Expr) {body : List Stmt} {rest : List Case}
    (hbody : AllMove k loop body) (hrest : CasesMove k loop rest) :
    CasesMove k loop (.of p guard body :: rest) := by
  intro branch after fresh
  cases hb : layOutAll loop fresh (fresh + 1) body with
  | mk b last =>
    simp only [List.map_cons, Case.respan, respanExpr?_eq, respanStmts_eq, layOutCases, hb, hbody hb]
    rw [moved_append, ← hrest]
    simp [Pattern.span_respan, patternText_respan, next_append]

theorem allMove_cons {s : Stmt} {rest : List Stmt}
    (hs : ∀ current fresh, layOut loop current fresh (s.respan (.moved k)) =
      (layOut loop current fresh s).moved k) (hrest : AllMove k loop rest) :
    AllMove k loop (s :: rest) := by
  intro current fresh b last h
  cases hf : layOut loop current fresh s with
  | mk f mid =>
    cases hg : layOutAll loop mid (f.next fresh) rest with
    | mk g last =>
      have hs' : layOut loop current fresh (s.respan (.moved k)) = (f.moved k, mid) := by rw [hs, hf]; rfl
      simp only [layOutAll, hf, hg] at h
      obtain ⟨rfl, rfl⟩ := Prod.mk.inj h
      simp only [List.map_cons, layOutAll, hs', next_moved, hrest hg, moved_append]

mutual

/-- **The layout of a moved statement is the moved layout**, whatever its form. -/
theorem layOut_moved (loop : Option Loop) : ∀ (s : Stmt) (current fresh : BlockId),
    layOut loop current fresh (s.respan (.moved k)) = (layOut loop current fresh s).moved k
  | .at span form, current, fresh => by
    cases form with
    | ifElse test body orelse =>
      exact layOut_ifElse_moved current fresh span test (layOutAll_moved loop body)
        (layOutAll_moved loop orelse)
    | whileLoop test body orelse =>
      have h := layOutLoop_moved current fresh (testHeader test) (whileLinks test) span
        (startLine body span.firstLine) (fun inner => layOutAll_moved (some inner) body)
        (layOutAll_moved loop orelse)
      simpa [Stmt.respan, StmtForm.respan, layOut, testHeader_respan, whileLinks, conditionText_respan,
        ← startLine_moved] using h
    | forLoop isAsync target iter body orelse =>
      have h := layOutLoop_moved current fresh (bindingHeader (some target) iter) (forLinks target iter) span
        (startLine body span.firstLine) (fun inner => layOutAll_moved (some inner) body)
        (layOutAll_moved loop orelse)
      simpa [Stmt.respan, StmtForm.respan, layOut, ← bindingHeader_moved, forLinks, conditionText_respan,
        ← startLine_moved] using h
    | withItems isAsync items body =>
      exact layOut_withItems_moved current fresh span isAsync items (layOutAll_moved loop body)
    | tryBlock isGroup body handlers orelse finalbody =>
      exact layOut_tryBlock_moved current fresh span isGroup (layOutAll_moved loop body)
        (layOutHandlers_moved loop handlers) (layOutAll_moved loop orelse) (layOutAll_moved loop finalbody)
    | matchCases subject cases =>
      simp [Stmt.respan, StmtForm.respan, layOut, Laid.moved, layOutCases_moved loop cases _ _ _,
        testHeader_respan]
    | ret value => rfl
    | breakLoop => cases loop <;> rfl
    | continueLoop => cases loop <;> rfl
    | _ => rfl

theorem layOutAll_moved (loop : Option Loop) : ∀ body : List Stmt, AllMove k loop body
  | [] => fun h => by
    obtain ⟨rfl, rfl⟩ := Prod.mk.inj h
    rfl
  | s :: rest => allMove_cons (layOut_moved loop s) (layOutAll_moved loop rest)

theorem layOutHandlers_moved (loop : Option Loop) : ∀ handlers : List Handler, HandlersMove k loop handlers
  | [] => fun _ _ _ _ => rfl
  | .at span type name body :: rest =>
    handlersMove_cons span type name (layOutAll_moved loop body) (layOutHandlers_moved loop rest)

theorem layOutCases_moved (loop : Option Loop) : ∀ cases : List Case, CasesMove k loop cases
  | [] => fun _ _ _ => rfl
  | .of p guard body :: rest =>
    casesMove_cons p guard (layOutAll_moved loop body) (layOutCases_moved loop rest)

end

end Statements

/-! ## Graphs -/

/-- A block whose code is `k` lines further down. -/
def Block.moved (k : Int) (b : Block) : Block :=
  { b with
    firstLine := b.firstLine + k
    lastLine := b.lastLine + k
    statements := b.statements.map (Option.map (Stmt.respan (.moved k))) }

/-- A graph whose code is `k` lines further down. -/
def Graph.moved (k : Int) (g : Graph) : Graph := { g with blocks := g.blocks.map (Block.moved k) }

/-- A module that is `k` lines further down. -/
def Code.Module.moved (k : Int) (m : Module) : Module := m.respan (.moved k)

section Graphs

variable {k : Int}

theorem Fragment.statementsOf_moved (f : Fragment) (id : BlockId) :
    (f.moved k).statementsOf id = (f.statementsOf id).map (Stmt.respan (.moved k)) := by
  simp [statementsOf, moved, List.filter_map, Function.comp_def]

theorem Fragment.lastLineOf_moved (statements : List Stmt) (line : Int) :
    lastLineOf (statements.map (Stmt.respan (.moved k))) (line + k) = lastLineOf statements line + k := by
  induction statements generalizing line with
  | nil => rfl
  | cons s rest ih =>
    have hmax : max (line + k) ((s.respan (.moved k)).span.lastLine) = max line s.span.lastLine + k := by
      rw [Stmt.span_respan, Span.lastLine_moved]
      lia
    simp only [lastLineOf, List.map_cons, List.foldl_cons, hmax] at ih ⊢
    exact ih _

theorem Fragment.blockOf_moved (f : Fragment) (last id : BlockId) (o : Opened) :
    (f.moved k).blockOf last id (o.moved k) = (f.blockOf last id o).moved k := by
  simp only [blockOf, Block.moved, statementsOf_moved, Opened.moved, lastLineOf_moved, List.map_map]
  rfl

/-- **The graph of a moved layout** is the moved graph. -/
theorem Fragment.toGraph_moved (f : Fragment) (name : String) (last : BlockId) :
    (f.moved k).toGraph name last = (f.toGraph name last).moved k := by
  have hopened : (f.moved k).opened = f.opened.map (Opened.moved k) := rfl
  simp only [toGraph, Graph.moved, hopened, List.zipIdx_map, List.map_map]
  congr 1
  exact List.map_congr_left fun _ _ => f.blockOf_moved last _ _

theorem Graph.ofBody_moved (name : String) (line : Int) (bindings body : List Stmt) :
    Graph.ofBody name (line + k) (bindings.map (Stmt.respan (.moved k)))
        (body.map (Stmt.respan (.moved k))) =
      (Graph.ofBody name line bindings body).moved k := by
  cases hf : layOutAll none 0 1 body with
  | mk f last =>
    rw [Graph.ofBody_eq name line bindings hf, Graph.ofBody_eq _ _ _ (layOutAll_moved none body hf),
      ← toGraph_moved, moved_append, moved_placing, moved_opens]

theorem Graph.ofModule_moved {m : Module} (hm : m.body ≠ []) :
    Graph.ofModule (m.moved k) = (Graph.ofModule m).moved k := by
  obtain ⟨s, rest, hbody⟩ := List.exists_cons_of_ne_nil hm
  rw [Graph.ofModule, Graph.ofModule, ← Graph.ofBody_moved]
  simp [Module.moved, Module.respan, hbody, startLine, Stmt.span_respan]

theorem Graph.ofFunction?_moved (s : Stmt) :
    Graph.ofFunction? (s.respan (.moved k)) = (Graph.ofFunction? s).map (Graph.moved k) := by
  obtain ⟨span, form⟩ := s
  cases form with
  | function isAsync name parameters body decorators returns =>
    simp [Graph.ofFunction?, Stmt.respan, StmtForm.respan, ← Graph.ofBody_moved, Parameters.inOrder_respan,
      Function.comp_def, parameterBinding_respan]
  | _ => rfl

theorem Code.Node.function?_respan (f : Span → Span) (name : String) (n : Node) :
    (n.respan f).function? name = (n.function? name).map (Stmt.respan f) := by
  cases n with
  | stmt s =>
    obtain ⟨span, form⟩ := s
    cases form with
    | function isAsync id parameters body decorators returns =>
      simp only [Node.respan, Node.function?, Stmt.respan, StmtForm.respan, Stmt.form_at]
      split <;> rfl
    | _ => rfl
  | _ => rfl

/-- **The graph of moved code is the moved graph**, at module level and for every function. -/
theorem Graph.of_moved {m : Module} (hm : m.body ≠ []) (function : Option String) :
    Graph.of (m.moved k) function = (Graph.of m function).map (Graph.moved k) := by
  cases function with
  | none => exact congrArg Except.ok (Graph.ofModule_moved hm)
  | some name =>
    have hfound : (Node.module (m.moved k)).breadthFirst.findSome? (Node.function? name) =
        ((Node.module m).breadthFirst.findSome? (Node.function? name)).map (Stmt.respan (.moved k)) := by
      rw [show Node.module (m.moved k) = (Node.module m).respan (.moved k) from rfl,
        Node.breadthFirst_respan, List.findSome?_map, List.map_findSome?]
      exact congrArg (List.findSome? · _) (funext fun n => n.function?_respan _ name)
    simp only [Graph.of, hfound]
    cases (Node.module m).breadthFirst.findSome? (Node.function? name) with
    | none => rfl
    | some s =>
      simp only [Option.map_some, Graph.ofFunction?_moved, Except.map]
      cases Graph.ofFunction? s <;> rfl

end Graphs

end Reaching
