/-
Spans tell the statements of a graph apart.

A body whose parts stand in the order of the source, none of them empty, leaves pieces that
stand in order as well, each with a span that is tight around its parts (`SourceOrder`). A
graph holds these pieces once each, in whatever blocks, so any two of the statements that it
holds lie apart (`Graph.ofBody_keepsSpans`): whatever is identified by its span, the end of an
edge or a line of a slice, is one statement.

The names under the pieces are those of the body, with the names that handlers bind in
addition. These have no span of their own and are put at the start of their handlers, which is
a place in the source too.
-/
import Reaching.Proofs.Names
import Reaching.Proofs.SourceOrder

namespace Reaching

open Code

/-! ## What handlers add -/

theorem added_items (items : List WithItem) : (items.map WithItem.origin).flatMap Origin.added = [] := by
  refine List.flatMap_eq_nil_iff.2 fun o ho => ?_
  obtain ⟨⟨context, target⟩, -, rfl⟩ := List.mem_map.1 ho
  cases target <;> rfl

theorem added_handlerOrigin (span : Span) (type : Option Expr) (name : Option String) (body : List Stmt) :
    (handlerOrigin span type name).flatMap Origin.added = (Handler.at span type name body).written := by
  cases type <;> cases name <;> rfl

mutual

/-- What the pieces of a statement add to the source is what their origins add. -/
theorem Code.Stmt.added_origins : ∀ s : Stmt,
    s.origins.flatMap Origin.added = s.collect Handler.written fun _ => []
  | .at span form => by
    cases form with
    | ifElse test body orelse =>
      simp [Stmt.origins, Stmt.collect, Origin.added, added_allOrigins body, added_allOrigins orelse]
    | whileLoop test body orelse =>
      simp [Stmt.origins, Stmt.collect, Origin.added, added_allOrigins body, added_allOrigins orelse]
    | forLoop isAsync target iter body orelse =>
      simp [Stmt.origins, Stmt.collect, Origin.added, added_allOrigins body, added_allOrigins orelse]
    | withItems isAsync items body =>
      rw [Stmt.origins, Stmt.collect, List.flatMap_append, added_items, added_allOrigins body, List.nil_append]
    | tryBlock isGroup body handlers orelse finalbody =>
      simp [Stmt.origins, Stmt.collect, added_allOrigins body, added_handlersOrigins handlers,
        added_allOrigins orelse, added_allOrigins finalbody]
    | matchCases subject cases =>
      simp [Stmt.origins, Stmt.collect, Origin.added, added_casesOrigins cases]
    | _ => rfl

theorem added_allOrigins : ∀ body : List Stmt,
    (allOrigins body).flatMap Origin.added = collectAll Handler.written (fun _ => []) body
  | [] => rfl
  | s :: rest => by
    rw [allOrigins, List.flatMap_append, s.added_origins, added_allOrigins rest]
    rfl

theorem added_handlersOrigins : ∀ handlers : List Handler,
    (handlersOrigins handlers).flatMap Origin.added = collectHandlers Handler.written (fun _ => []) handlers
  | [] => rfl
  | .at span type name body :: rest => by
    rw [handlersOrigins, List.flatMap_append, List.flatMap_append, added_handlerOrigin span type name body,
      added_allOrigins body, added_handlersOrigins rest]
    rfl

theorem added_casesOrigins : ∀ cases : List Case,
    (casesOrigins cases).flatMap Origin.added = collectCases Handler.written (fun _ => []) cases
  | [] => rfl
  | .of _ _ body :: rest => by
    rw [casesOrigins, List.flatMap_append, added_allOrigins body, added_casesOrigins rest]
    rfl

end

/-- The name that a handler binds is at the start of the handler. -/
theorem Origin.start_of_mem_added {o : Origin} (ho : o.Tight) {n : Reference}
    (hn : n ∈ namesUnder o.added) : n.span.start = o.piece.span.start := by
  cases o with
  | caught handler name type =>
    have hname : n = ⟨name, (handlerTarget handler name).span⟩ := by
      simpa [added, namesUnder, Node.names, Node.breadthFirst_eq, handlerTarget, Node.name?, Node.children,
        ExprForm.children, Node.levels] using hn
    rw [hname, (ho.caught handler name type rfl).1]
    rfl
  | _ => cases hn

/-! ## Spans of a graph -/

/-- The statements that the blocks of a graph hold. -/
def Graph.placed (g : Graph) : List Stmt := (g.blocks.flatMap (·.statements)).filterMap id

/-- The statements of a graph come from some parts of the source, and their spans tell them
apart. -/
structure Graph.KeepsSpans (g : Graph) (origins : List Origin) : Prop where
  /-- The blocks together hold what each part leaves, once. -/
  placed : g.placed.Perm (origins.map Origin.piece)
  /-- Every statement has a known span, which is not empty. -/
  known : ∀ s ∈ g.placed, s.span ≠ Span.unknown ∧ s.span.start < s.span.stop
  /-- So has every name under a statement; the name that a handler binds has no width. -/
  namesKnown : ∀ n ∈ g.names, n.span ≠ Span.unknown
  /-- The span of a header is the smallest one over its parts. -/
  tight : ∀ o ∈ origins, o.Tight
  /-- Any two statements have nothing in common. -/
  apart : g.placed.Pairwise fun s t => s.span.Apart t.span
  /-- No span is that of two statements. -/
  distinct : (g.placed.map Stmt.span).Nodup

theorem Graph.HoldsBody.placed_perm {g : Graph} {bindings body : List Stmt} (h : g.HoldsBody bindings body) :
    g.placed.Perm (bindings ++ allPieces body) := by
  have hperm := h.once.filterMap id
  rwa [List.filterMap_map, Function.id_comp, List.filterMap_some] at hperm

/-- Statements that come from settled parts lie apart. -/
theorem Settled.apart {lo hi : Position} {origins : List Origin} (h : Settled (· < ·) lo origins hi)
    {placed : List Stmt} (hplaced : placed.Perm (origins.map Origin.piece)) :
    placed.Pairwise fun s t => s.span.Apart t.span := by
  refine (List.Perm.pairwise_iff Span.Apart.symm hplaced).2 (List.pairwise_map.2 ?_)
  exact (h.pairwise widening_lt).imp Or.inl

/-- The binding of a parameter has no name but the parameter's. -/
theorem names_parameterBinding (p : Parameter) :
    (Node.stmt (parameterBinding p)).names = [⟨p.name, p.span⟩] := by
  refine List.perm_singleton.1 ((Node.names_perm rfl).trans ?_)
  simp [Node.children, parameterBinding, StmtForm.children, namesUnder, Node.names, Node.breadthFirst_eq,
    Node.name?, ExprForm.children, Node.levels]

/-- **The names under what is placed are known**, those of the parameters, of the body, and
those that handlers bind. -/
theorem Graph.HoldsBody.names_known {g : Graph} {ps : List Parameter} {body : List Stmt}
    (h : g.HoldsBody (ps.map parameterBinding) body) (hps : ∀ p ∈ ps, p.span ≠ Span.unknown)
    (hadded : ∀ n ∈ namesUnder (allAdded body), n.span ≠ Span.unknown)
    (hbody : ∀ n ∈ namesUnder (body.map .stmt), n.span ≠ Span.unknown) :
    ∀ n ∈ g.names, n.span ≠ Span.unknown := by
  intro n hn
  rw [h.names_perm.mem_iff, namesUnder_append, List.mem_append] at hn
  rcases hn with hn | hn
  · obtain ⟨node, hnode, hn⟩ := List.mem_flatMap.1 hn
    obtain ⟨s, hs, rfl⟩ := List.mem_map.1 hnode
    obtain ⟨p, hp, rfl⟩ := List.mem_map.1 hs
    rw [names_parameterBinding, List.mem_singleton] at hn
    exact hn ▸ hps p hp
  · -- a name of a piece is one of the body, or one that is added
    have hcount := count_allPieces n body
    have hpos := List.count_pos_iff.2 hn
    by_cases hmem : n ∈ namesUnder (body.map .stmt)
    · exact hbody n hmem
    · rw [List.count_eq_zero_of_not_mem hmem] at hcount
      refine hadded n (List.count_pos_iff.1 ?_)
      rw [allAdded]
      omega

/-- **The graph of a body in the order of the source keeps its spans**, whatever the lines on
which its blocks start. -/
theorem Graph.ofBody_keepsSpans (name : String) (line : Int) {ps : List Parameter} {body : List Stmt}
    {lo hi : Position} (hlo : Position.first ≤ lo)
    (h : Arranged (· < ·) lo (ps.map (fun p => .header p.span) ++ body.map .stmt) hi)
    (hnames : ∀ n ∈ namesUnder (body.map .stmt), n.span ≠ Span.unknown) :
    (Graph.ofBody name line (ps.map parameterBinding) body).KeepsSpans
      (ps.map .parameter ++ allOrigins body) := by
  obtain ⟨mid, hps, hbody⟩ := arranged_append.1 h
  have hsettled := (settled_parameters ps hps).append (settled_allOrigins widening_lt body hbody)
  have hholds := Graph.ofBody_holdsBody name line (ps.map parameterBinding) body
  have hplaced : (Graph.ofBody name line (ps.map parameterBinding) body).placed.Perm
      ((ps.map Origin.parameter ++ allOrigins body).map Origin.piece) := by
    rw [List.map_append, List.map_map, map_piece_allOrigins]
    exact hholds.placed_perm
  have hknown : ∀ o ∈ ps.map Origin.parameter ++ allOrigins body,
      o.piece.span ≠ Span.unknown ∧ o.piece.span.start < o.piece.span.stop := by
    intro o ho
    obtain ⟨hstart, hwide, -⟩ := hsettled.of_mem widening_lt ho
    exact ⟨Span.ne_unknown (hlo.trans hstart), hwide⟩
  have hall : ∀ s ∈ (Graph.ofBody name line (ps.map parameterBinding) body).placed,
      s.span ≠ Span.unknown ∧ s.span.start < s.span.stop := by
    intro s hs
    obtain ⟨o, ho, rfl⟩ := List.mem_map.1 (hplaced.mem_iff.1 hs)
    exact hknown o ho
  have hapart := hsettled.apart hplaced
  exact {
    placed := hplaced
    known := hall
    namesKnown := by
      refine hholds.names_known (fun p hp => ?_) (fun n hn => ?_) hnames
      · exact (hknown (.parameter p) (List.mem_append_left _ (List.mem_map_of_mem hp))).1
      · rw [allAdded, ← added_allOrigins] at hn
        obtain ⟨node, hnode, hn⟩ := List.mem_flatMap.1 hn
        obtain ⟨o, ho, hnode⟩ := List.mem_flatMap.1 hnode
        obtain ⟨hstart, -, -, htight⟩ := hsettled.of_mem widening_lt (List.mem_append_right _ ho)
        have hat := Origin.start_of_mem_added htight (List.mem_flatMap.2 ⟨node, hnode, hn⟩)
        exact Span.ne_unknown (hat ▸ hlo.trans hstart)
    tight := fun o ho => (hsettled.of_mem widening_lt ho).2.2.2
    apart := hapart
    distinct := by
      refine List.pairwise_map.2 (hapart.imp_of_mem fun hs _ hst => ?_)
      exact hst.ne (hall _ hs).2 }

/-- **Spans tell the statements of a graph apart.** A body has parts with spans, none of them
empty, in the order of the source and each inside of the part it belongs to, and its names have
known spans. Then the graph of a module, and that of a function with its parameters, holds
statements with known spans only, and so are the names under them; the span of a header is the
smallest one over its parts, and runs from the start of the handler to the end of the type if
the handler binds a name; and any two statements have nothing in common. -/
theorem Graph.spans_kept :
    (∀ (m : Module) (hi : Position),
      Arranged (· < ·) Position.first (m.body.map .stmt) hi →
      (∀ n ∈ namesUnder (m.body.map .stmt), n.span ≠ Span.unknown) →
      (Graph.ofModule m).KeepsSpans (allOrigins m.body)) ∧
    ∀ (span : Span) (isAsync : Bool) (name : String) (ps : Parameters) (body : List Stmt)
      (decorators : List Expr) (returns : Option Expr), Position.first ≤ span.start →
      Arranged (· < ·) span.start (ps.inOrder.map (fun p => .header p.span) ++ body.map .stmt) span.stop →
      (∀ n ∈ namesUnder (body.map .stmt), n.span ≠ Span.unknown) →
      ∃ g, Graph.ofFunction? (.at span (.function isAsync name ps body decorators returns)) = some g ∧
        g.KeepsSpans (ps.inOrder.map .parameter ++ allOrigins body) := by
  refine ⟨fun m hi h hnames => ?_, fun span isAsync name ps body decorators returns hlo h hnames => ?_⟩
  · have hbody : Arranged (· < ·) Position.first
        (([] : List Parameter).map (fun p => .header p.span) ++ m.body.map .stmt) hi := h
    have hkept := Graph.ofBody_keepsSpans "<module>" (startLine m.body 1) le_rfl hbody hnames
    exact hkept
  · exact ⟨_, rfl, Graph.ofBody_keepsSpans name _ hlo h hnames⟩

/-- A loop around an item with a target and one without, and a handler that binds what it
catches:

    for x in a:
        with b as y, x:
            y
    try:
        x
    except E as e:
        e
-/
def Code.Stmt.boundInHeaders : List Stmt :=
  let name (line column : Int) (id : String) : Expr := .at ⟨line, column, line, column + 1⟩ (.name id)
  let read (line column : Int) (id : String) : Stmt :=
    .at ⟨line, column, line, column + 1⟩ (.expr (name line column id))
  [.at ⟨2, 4, 4, 13⟩ (.forLoop false (name 2 8 "x") (name 2 13 "a")
    [.at ⟨3, 8, 4, 13⟩ (.withItems false [⟨name 3 13 "b", some (name 3 18 "y")⟩, ⟨name 3 21 "x", none⟩]
      [read 4 12 "y"])] []),
   .at ⟨5, 4, 8, 9⟩ (.tryBlock false [read 6 8 "x"]
    [.at ⟨7, 4, 8, 9⟩ (some (name 7 11 "E")) (some "e") [read 8 8 "e"]] [] [])]

/-- The parameters `a` and `b` of a function around these statements. -/
def Code.Parameters.aAndB : Parameters :=
  .of [] [.at ⟨1, 6, 1, 7⟩ "a" Option.none Option.none, .at ⟨1, 9, 1, 10⟩ "b" Option.none Option.none]
    Option.none [] Option.none

/-- The hypotheses of `spans_kept` hold of a body with all kinds of headers, both at module
level and in a function. -/
theorem Graph.boundInHeaders_spans_kept :
    let body := Stmt.boundInHeaders
    let ps := Parameters.aAndB
    (Arranged (· < ·) Position.first (body.map .stmt) ⟨8, 9⟩ ∧
      (∀ n ∈ namesUnder (body.map .stmt), n.span ≠ Span.unknown) ∧
      (Graph.ofModule ⟨body⟩).KeepsSpans (allOrigins body)) ∧
    Position.first ≤ (⟨1, 0, 8, 9⟩ : Span).start ∧
    Arranged (· < ·) ⟨1, 0⟩ (ps.inOrder.map (fun p => .header p.span) ++ body.map .stmt) ⟨8, 9⟩ ∧
    ∃ g, Graph.ofFunction? (.at ⟨1, 0, 8, 9⟩ (.function false "f" ps body [] none)) = some g ∧
      g.KeepsSpans (ps.inOrder.map .parameter ++ allOrigins body) := by
  intro body ps
  have hmodule : Arranged (· < ·) Position.first (body.map .stmt) ⟨8, 9⟩ := by
    simp [body, Stmt.boundInHeaders, arranged_cons, arranged_nil, Part.parts, Part.span, WithItem.parts,
      Span.start, Span.stop, Position.le_iff, Position.lt_iff, Position.first, Expr.span]
  have hfunction : Arranged (· < ·) ⟨1, 0⟩
      (ps.inOrder.map (fun p => .header p.span) ++ body.map .stmt) ⟨8, 9⟩ := by
    simp [body, ps, Stmt.boundInHeaders, Parameters.aAndB, Parameters.inOrder, Parameter.span, arranged_cons,
      arranged_nil, Part.parts, Part.span, WithItem.parts, Span.start, Span.stop, Position.le_iff,
      Position.lt_iff, Expr.span]
  have hnames : ∀ n ∈ namesUnder (body.map .stmt), n.span ≠ Span.unknown := by decide +kernel
  have hfirst : Position.first ≤ (⟨1, 0, 8, 9⟩ : Span).start := by decide
  exact ⟨⟨hmodule, hnames, Graph.spans_kept.1 ⟨body⟩ _ hmodule hnames⟩, hfirst, hfunction,
    Graph.spans_kept.2 ⟨1, 0, 8, 9⟩ false "f" ps body [] none hfirst hfunction hnames⟩

end Reaching
