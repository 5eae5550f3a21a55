/-
From where the handlers of a `try` statement are entered.

Control passes to every handler from the block in which the body of the statement ends. If
the last statement of the body is simple this is the block that holds it. Behind a `return` it
is a block that nothing enters, while the block of the `return` leads nowhere: what has been
defined there does not come to the handlers (`Graph.tryEnd_enters_handlers_iff`).
-/
import Reaching.Proofs.Runs
import Reaching.Proofs.Spots
import Reaching.Proofs.WellFormed

namespace Reaching

open Code Fragment

/-! ## Statements in front of others -/

namespace Spot

variable (x : Spot)

theorem behind_behind (f : Laid) (g : Laid) :
    (x.behind f).behind g = x.behind (f.1 ++ g.1, g.2) := by
  simp [behind, next_append]

/-- Statements that follow others are laid out behind them. -/
theorem laidAll_append (first rest : List Stmt) :
    x.laidAll (first ++ rest) = ((x.laidAll first).1 ++ ((x.behind (x.laidAll first)).laidAll rest).1,
      ((x.behind (x.laidAll first)).laidAll rest).2) := by
  induction first generalizing x with
  | nil => simp [laidAll, layOutAll, behind, empty_append]
  | cons s first ih =>
    have hcons : ∀ body, x.laidAll (s :: body) = ((x.laid s).1 ++ ((x.behind (x.laid s)).laidAll body).1,
        ((x.behind (x.laid s)).laidAll body).2) := fun _ => rfl
    rw [List.cons_append, hcons, hcons, ih, behind_behind, append_assoc]

/-- The spots of statements that follow others are those behind them. -/
theorem allSpots_append (first rest : List Stmt) :
    allSpots x (first ++ rest) = allSpots x first ++ allSpots (x.behind (x.laidAll first)) rest := by
  induction first generalizing x with
  | nil => simp [allSpots, laidAll, layOutAll, behind]
  | cons s first ih =>
    have hcons : x.laidAll (s :: first) = ((x.laid s).1 ++ ((x.behind (x.laid s)).laidAll first).1,
        ((x.behind (x.laid s)).laidAll first).2) := rfl
    rw [List.cons_append, allSpots, allSpots, ih, hcons, behind_behind, List.cons_append, List.append_assoc]

theorem laid_simple {s : Stmt} (h : s.isSimple = true) :
    x.laid s = (places x.current s, x.current) := by
  obtain ⟨span, form⟩ := s
  cases form <;> first | rfl | simp [Stmt.isSimple] at h

/-- A `return` stands in its block, and leaves the body there. -/
theorem laid_return {s : Stmt} (h : s.isReturn = true) :
    s ∈ (x.laid s).1.statementsOf x.current ∧ x.current ∈ (x.laid s).1.returns := by
  obtain ⟨span, form⟩ := s
  cases form <;> simp [Stmt.isReturn] at h
  simp [laid, layOut, statementsOf_places]

end Spot

/-! ## Handlers -/

/-- The span of a handler. -/
def Code.Handler.span : Handler → Span
  | .at span _ _ _ => span

/-- The blocks that handlers open, the first of them with a number. -/
def handlerBlocks (loop : Option Loop) (block : BlockId) : List Handler → List BlockId
  | [] => []
  | .at _ _ _ body :: rest =>
    let top := Spot.top loop block
    block :: handlerBlocks loop (top.behind (top.laidAll body)).fresh rest

variable {loop : Option Loop}

/-- Handlers open their blocks. -/
theorem handlerBlocks_open (before bodyEnd after : BlockId) : ∀ (handlers : List Handler) (fresh : BlockId),
    List.Forall₂ (fun h i => (layOutHandlers loop before bodyEnd after fresh handlers).OpensAt fresh i
      ⟨.handler, h.span.firstLine⟩) handlers (handlerBlocks loop fresh handlers)
  | [], _ => .nil
  | .at span type name body :: rest, fresh => by
    rw [layOutHandlers_cons before bodyEnd after span type name rest rfl]
    refine .cons ?_ ((handlerBlocks_open before bodyEnd after rest _).imp fun h i hi => ?_)
    · simp only [append_assoc]
      exact opensAt_append.2 (.inr (opensAt_append.2 (.inl ⟨0, rfl, by simp⟩)))
    · refine opensAt_append.2 (.inr ?_)
      simpa [next_append, Spot.behind, Spot.laidAll, Spot.top] using hi

/-- Control passes to handlers from the end of the body. -/
theorem handlerBlocks_leads (before bodyEnd after : BlockId) : ∀ (handlers : List Handler) (fresh : BlockId),
    ∀ i ∈ handlerBlocks loop fresh handlers,
      (layOutHandlers loop before bodyEnd after fresh handlers).Leads bodyEnd i
  | [], _ => by simp [handlerBlocks]
  | .at span type name body :: rest, fresh => by
    intro i hi
    rw [layOutHandlers_cons before bodyEnd after span type name rest rfl]
    rcases List.mem_cons.1 hi with rfl | hi
    · simp
    · exact leads_append.2 (.inr (handlerBlocks_leads before bodyEnd after rest _ i hi))

namespace Spot

variable (x : Spot)

/-- The blocks that the handlers of a `try` statement open. -/
def handlers (body : List Stmt) (handlers : List Handler) : List BlockId :=
  handlerBlocks x.loop (x.afterTry body + 1) handlers

/-- The spot behind the first statements of the body of a `try` statement. -/
def within (init : List Stmt) : Spot := x.attempt.behind (x.attempt.laidAll init)

/-- The handlers of a `try` statement stand in its layout. -/
theorem handlers_standIn (span : Span) (isGroup : Bool) (body : List Stmt) (handlers : List Handler)
    (orelse finalbody : List Stmt) :
    (layOutHandlers x.loop x.current (x.attempt.laidAll body).2 (x.afterTry body) (x.afterTry body + 1)
      handlers).StandsIn (x.afterTry body + 1)
        (x.laid (.at span (.tryBlock isGroup body handlers orelse finalbody))).1 x.fresh := by
  rw [laid, layOut_tryBlock span isGroup handlers orelse finalbody rfl rfl]
  refine (((StandsIn.refl _ _).last ?_).left _).left _
  simp [next_append, afterTry, behind, laidAll, attempt, top]

/-- The last statement of the body of a `try` statement is laid out behind the others. -/
theorem mem_inner_try (span : Span) (isGroup : Bool) (init : List Stmt) (t : Stmt)
    (handlers : List Handler) (orelse finalbody : List Stmt) :
    (x.within init, t) ∈
      (Stmt.at span (.tryBlock isGroup (init ++ [t]) handlers orelse finalbody)).inner x := by
  simp [Stmt.inner, allSpots_append, allSpots, within]

/-- The body of a `try` statement ends where its last statement does. -/
theorem laidAll_concat (init : List Stmt) (t : Stmt) :
    (x.attempt.laidAll (init ++ [t])).2 = ((x.within init).laid t).2 := by
  rw [laidAll_append]
  rfl

/-- Behind a simple statement the body ends in the block that holds it, and control passes
from there to every handler. -/
theorem leads_handlers {t : Stmt} (ht : t.isSimple = true) (span : Span) (isGroup : Bool)
    (init : List Stmt) (handlers : List Handler) (orelse finalbody : List Stmt) {i : BlockId}
    (hi : i ∈ x.handlers (init ++ [t]) handlers) :
    (x.laid (.at span (.tryBlock isGroup (init ++ [t]) handlers orelse finalbody))).1.Leads
      (x.within init).current i := by
  have hend : (x.attempt.laidAll (init ++ [t])).2 = (x.within init).current := by
    rw [laidAll_concat, laid_simple _ ht]
  rw [← hend]
  exact (x.handlers_standIn span isGroup _ handlers orelse finalbody).leads
    (handlerBlocks_leads _ _ _ handlers _ i hi)

/-- The last statement of the body stands in the current block of its spot. -/
theorem mem_statementsOf_within {t : Stmt} (ht : t.isSimple = true ∨ t.isReturn = true) (init : List Stmt) :
    t ∈ ((x.within init).laid t).1.statementsOf (x.within init).current := by
  rcases ht with ht | ht
  · simp [laid_simple _ ht, statementsOf_places]
  · exact (laid_return _ ht).1

end Spot

/-! ## Whole bodies -/

section Body

variable {body init orelse finalbody : List Stmt} {x : Spot} {span : Span} {isGroup : Bool} {t : Stmt}
  {handlers : List Handler}

/-- What the layout of a whole body says of the block with the last statement of the body of
a `try` statement. -/
theorem layOut_tryEnd (hspot : (x, .at span (.tryBlock isGroup (init ++ [t]) handlers orelse finalbody)) ∈
      allSpots .start body) (ht : t.isSimple = true ∨ t.isReturn = true) :
    let f := (Spot.start.laidAll body).1
    t ∈ f.statementsOf (x.within init).current ∧
      List.Forall₂ (fun h i => f.OpensAt 1 i ⟨.handler, h.span.firstLine⟩) handlers
        (x.handlers (init ++ [t]) handlers) ∧
      (t.isSimple = true → ∀ i ∈ x.handlers (init ++ [t]) handlers, f.Leads (x.within init).current i) ∧
      (t.isReturn = true → (x.within init).current ∈ f.returns) := by
  intro f
  have htry := allSpots_standIn body .start _ hspot
  have hlast := (inner_standIn _ x _ (x.mem_inner_try span isGroup init t handlers orelse finalbody)).trans
    htry
  have hhandlers := (x.handlers_standIn span isGroup (init ++ [t]) handlers orelse finalbody).trans htry
  refine ⟨hlast.mem_statementsOf (x.mem_statementsOf_within ht init), ?_, fun ht i hi => ?_, fun ht => ?_⟩
  · exact (handlerBlocks_open _ _ _ handlers _).imp fun h i => hhandlers.opensAt
  · exact htry.leads (x.leads_handlers ht span isGroup init handlers orelse finalbody hi)
  · exact hlast.mem_returns (Spot.laid_return _ ht).2

/-- Where a block opens in a whole layout, the graph has it. -/
theorem Fragment.OpensAt.exists_block {F : Fragment} {i : BlockId} {o : Opened} (h : F.OpensAt 0 i o)
    (name : String) (last : BlockId) :
    ∃ b ∈ (F.toGraph name last).blocks, b.id = i ∧ b.firstLine = o.line := by
  obtain ⟨k, hk, rfl⟩ := h
  exact ⟨_, mem_blocks.2 ⟨k, o, hk, rfl⟩, by simp [blockOf], rfl⟩

/-- **When handlers are entered from the last statement of the body.** At any depth of a body,
the block with the last statement of the body of a `try` statement leads to all handlers
of the statement if the last statement is simple, and then what arrives at its end arrives at
the handlers. If it is a `return`, its block leads nowhere. -/
theorem Graph.tryEnd_enters_handlers_iff (name : String) (line : Int) (bindings : List Stmt)
    (hspot : (x, .at span (.tryBlock isGroup (init ++ [t]) handlers orelse finalbody)) ∈
      allSpots .start body)
    (hhandlers : handlers ≠ []) (ht : t.isSimple = true ∨ t.isReturn = true) :
    let g := Graph.ofBody name line bindings body
    ∃ b ∈ g.blocks, b.id = (x.within init).current ∧ some t ∈ b.statements ∧
      List.Forall₂ (fun h i => ∃ c ∈ g.blocks, c.id = i ∧ c.firstLine = h.span.firstLine)
        handlers (x.handlers (init ++ [t]) handlers) ∧
      ((∀ i ∈ x.handlers (init ++ [t]) handlers, i ∈ b.succs) ↔ t.isReturn = false) ∧
      (t.isReturn = true → b.succs = []) ∧
      (t.isReturn = false → ∀ (rules : Rules) (r : Reference),
        Arrives (g.sites rules) r (b.site rules).bottom →
          ∀ i ∈ x.handlers (init ++ [t]) handlers, Arrives (g.sites rules) r ⟨i, 0⟩) := by
  intro g
  obtain ⟨hheld, hopen, hsimple, hreturn⟩ := layOut_tryEnd hspot ht
  cases hf : layOutAll none 0 1 body with
  | mk f last =>
    rw [Spot.laidAll, Spot.start, hf] at hheld hopen hsimple hreturn
    have hroom : Room none 0 1 := ⟨by decide, by decide, by simp [Loop.Ends]⟩
    have hlies := hf ▸ layOutAll_lies none body 0 1 (by decide)
    have hclean := (hf ▸ layOutAll_tidy none body 0 1 hroom).clean
    have hg : g = ((opens .entry line).placing 0 bindings ++ f).toGraph name last :=
      Graph.ofBody_eq name line bindings hf
    generalize hF : (opens .entry line).placing 0 bindings ++ f = F at hg
    have hwhole : f.StandsIn 1 F 0 := hF ▸ (StandsIn.refl f 1).last (by simp)
    have hinside : 0 ≤ (x.within init).current ∧ (x.within init).current < F.next 0 := by
      have := hlies.within.touches _ (.inl (List.ne_nil_of_mem hheld))
      have := f.le_next 1
      simp only [← hF, next_append, next_placing, next_opens]
      lia
    have hblocks := hopen.imp fun h i hi => (hwhole.opensAt hi).exists_block name last
    obtain ⟨b, hb, hid⟩ := exists_block name last hinside
    obtain ⟨-, -, hsuccs, hstatements⟩ := Whole.of_mem_blocks hb
    have hall : t.isReturn = false → ∀ i ∈ x.handlers (init ++ [t]) handlers, i ∈ b.succs := by
      intro hne i hi
      rw [hsuccs, mem_successors, hid]
      exact hwhole.leads (hsimple (ht.resolve_right (by simp [hne])) i hi)
    have hnone : t.isReturn = true → b.succs = [] := by
      intro hret
      rw [hsuccs, successors_eq_nil, hid]
      exact fun j hj => hclean.nowhere _ (hreturn hret) j (by simpa [← hF] using hj)
    rw [hg]
    refine ⟨b, hb, hid, ?_, hblocks, ⟨fun h => ?_, hall⟩, hnone, fun hne rules r harr i hi => ?_⟩
    · rw [hstatements, hid]
      exact List.mem_map.2 ⟨t, hwhole.mem_statementsOf hheld, rfl⟩
    · -- there is a handler, and behind a return its block is not among the successors
      have hsome : x.handlers (init ++ [t]) handlers ≠ [] := by
        intro hnil
        rw [hnil] at hopen
        exact hhandlers (List.forall₂_nil_right_iff.1 hopen)
      obtain ⟨i, hi⟩ := List.exists_mem_of_ne_nil _ hsome
      refine Bool.eq_false_iff.2 fun hret => ?_
      simpa [hnone hret] using h i hi
    · obtain ⟨origin, harr⟩ := harr
      exact ⟨origin, harr.step (.link (Graph.site_mem_sites hb rules) (hall hne i hi))⟩

end Body

/-! ## A body that ends in a simple statement, and one that returns -/

/-- The name `x` as a statement at the start of a block. -/
def nameX (line column : Int) : Stmt :=
  .at ⟨line, column, line, column + 1⟩ (.expr (.at ⟨line, column, line, column + 1⟩ (.name "x")))

/-- A handler for `E` that looks at `x`. -/
def handlerX (line column : Int) : Handler :=
  .at ⟨line, column, line + 1, column + 5⟩
    (some (.at ⟨line, column + 7, line, column + 8⟩ (.name "E"))) none [nameX (line + 1) (column + 4)]

/-- The binding `x = y` at the start of a block. -/
def bindX (line column : Int) : Stmt :=
  .at ⟨line, column, line, column + 5⟩ (.assign [.at ⟨line, column, line, column + 1⟩ (.name "x")]
    (.at ⟨line, column + 4, line, column + 5⟩ (.name "y")))

/-- A loop that binds `x` in a `try` statement in every turn:

    while y:
        try:
            x = y
        except E:
            x
-/
def boundInLoop : List Stmt :=
  [.at ⟨1, 0, 5, 9⟩ (.whileLoop (.at ⟨1, 6, 1, 7⟩ (.name "y"))
    [.at ⟨2, 4, 5, 9⟩ (.tryBlock false [bindX 3 8] [handlerX 4 4] [] [])] [])]

/-- A function that binds `x` and returns it in a `try` statement:

    def f():
        try:
            x = y
            return x
        except E:
            x
-/
def returnedInTry : List Stmt :=
  [.at ⟨2, 4, 6, 9⟩ (.tryBlock false
    [bindX 3 8, .at ⟨4, 8, 4, 16⟩ (.ret (some (.at ⟨4, 15, 4, 16⟩ (.name "x"))))] [handlerX 5 4] [] [])]

/-- The block with the binding leads to the handler, inside of a loop. -/
theorem Graph.boundInLoop_enters_handler :
    [handlerX 4 4] ≠ [] ∧ (bindX 3 8).isSimple = true ∧
      ∃ b ∈ (Graph.ofBody "<module>" 1 [] boundInLoop).blocks, some (bindX 3 8) ∈ b.statements ∧
        6 ∈ b.succs := by
  have hspot : ((⟨some ⟨1, 2⟩, 3, 4⟩ : Spot),
      Stmt.at ⟨2, 4, 5, 9⟩ (.tryBlock false ([] ++ [bindX 3 8]) [handlerX 4 4] [] [])) ∈
        allSpots .start boundInLoop := .tail _ (.head _)
  have hsome : [handlerX 4 4] ≠ [] := by simp
  obtain ⟨b, hb, -, hheld, -, hall, -⟩ := Graph.tryEnd_enters_handlers_iff "<module>" 1 [] hspot hsome
    (.inl (by decide))
  exact ⟨hsome, by decide, b, hb, hheld, hall.2 (by decide) 6 (by decide)⟩

/-- **A handler that the last statement of the body does not lead to.** The block with the
`return` has no successor, and the analysis finds no edge from the binding in it to the handler. -/
theorem Graph.returnedInTry_misses_handler :
    (∃ x span isGroup init t handlers orelse finalbody,
      (x, .at span (.tryBlock isGroup (init ++ [t]) handlers orelse finalbody)) ∈
        allSpots .start returnedInTry ∧ handlers ≠ [] ∧ t.isReturn = true ∧
      ∃ b ∈ (Graph.ofBody "f" 1 [] returnedInTry).blocks, some t ∈ b.statements ∧
        ∃ i ∈ x.handlers (init ++ [t]) handlers, i ∉ b.succs) ∧
      ∃ s o, analyze ((Graph.ofBody "f" 1 [] returnedInTry).sites .empty) none
          (.fresh ((Graph.ofBody "f" 1 [] returnedInTry).sites .empty)) = .ok (s, o) ∧
        s.edges = [⟨⟨3, 8, 3, 13⟩, ⟨4, 8, 4, 16⟩⟩] := by
  constructor
  · refine ⟨.start, ⟨2, 4, 6, 9⟩, false, [bindX 3 8], _, [handlerX 5 4], [], [], .head _, by simp, ?_,
      _, .tail _ (.head _), .tail _ (.head _), 4, by decide, by decide⟩
    rfl
  · have hfound : (analyze ((Graph.ofBody "f" 1 [] returnedInTry).sites .empty) none
        (.fresh ((Graph.ofBody "f" 1 [] returnedInTry).sites .empty))).toOption.map (fun r => r.1.edges) =
        some [⟨⟨3, 8, 3, 13⟩, ⟨4, 8, 4, 16⟩⟩] := by decide +kernel
    cases hok : analyze ((Graph.ofBody "f" 1 [] returnedInTry).sites .empty) none
        (.fresh ((Graph.ofBody "f" 1 [] returnedInTry).sites .empty)) with
    | error e => simp [hok, Except.toOption] at hfound
    | ok r =>
      obtain ⟨s, o⟩ := r
      exact ⟨s, o, rfl, by simpa [hok, Except.toOption] using hfound⟩

end Reaching
