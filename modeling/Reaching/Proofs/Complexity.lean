/-
The complexity that is reported for a body, and the shape of its graph.

The complexity is counted on the way, one for every place where control forks: a test, a loop,
a handler, a case. The graph comes from elsewhere, from the blocks that open and the transfers
between them. Every form keeps both in step (`Fragment.Tallied`): behind a block that opens or a
decision that is taken there is a transfer or a `return`. Only a handler gets one transfer more
than that, because it is entered by two, from the block before its statement and from the end of
the body. So the complexity is the cyclomatic number of the graph with one exit, less one for each
handler (`Graph.complexity_tallied`).
-/
import Reaching.Proofs.Handlers
import Reaching.Proofs.Names
import Reaching.Proofs.WellFormed

namespace Reaching

open Code Fragment

/-! ## Handlers -/

/-- The handlers in statements at any depth, in the order of the source. Definitions are not
looked into. -/
def allHandlers : List Stmt → List Node := collectAll (fun h => [.handler h]) fun _ => []

/-! ## What a fragment adds -/

namespace Fragment

variable {f g : Fragment} {n a b : BlockId}

/-- By how much the ways out of blocks outnumber the blocks that open and the decisions. -/
def surplus (f : Fragment) : Int :=
  f.transfers.length + f.returns.length - f.opened.length - f.decisions

@[simp] theorem surplus_append : (f ++ g).surplus = f.surplus + g.surplus := by
  show (((f.transfers ++ g.transfers).length : Int) + (f.returns ++ g.returns).length
    - (f.opened ++ g.opened).length - (f.decisions + g.decisions : Nat)) = _
  simp only [List.length_append, surplus]
  lia

@[simp] theorem surplus_empty : Fragment.surplus {} = 0 := rfl

@[simp] theorem surplus_opens (kind : BlockKind) (line : Int) : (opens kind line).surplus = -1 := rfl

@[simp] theorem surplus_places (s : Stmt) : (places b s).surplus = 0 := rfl

@[simp] theorem surplus_passes (kind : TransferKind) (text : Option String) :
    (passes a b kind text).surplus = 1 := rfl

@[simp] theorem surplus_turns (kind : BlockKind) : (turns b kind).surplus = 0 := rfl

@[simp] theorem surplus_returnsFrom : (returnsFrom b).surplus = 1 := rfl

@[simp] theorem surplus_decides : decides.surplus = -1 := rfl

@[simp] theorem surplus_placing (statements : List Stmt) : (f.placing b statements).surplus = f.surplus := by
  unfold placing
  induction statements generalizing f with
  | nil => rfl
  | cons s rest ih => rw [List.foldl_cons, ih, surplus_append, surplus_places, Int.add_zero]

/-- The blocks that open, with their numbers. -/
def numbered (f : Fragment) (fresh : BlockId) : List (BlockId × Opened) :=
  f.opened.zipIdx.map fun o => (fresh + o.2, o.1)

@[simp] theorem numbered_append : (f ++ g).numbered n = f.numbered n ++ g.numbered (f.next n) := by
  have hshift : g.opened.zipIdx f.opened.length =
      g.opened.zipIdx.map fun o => (o.1, f.opened.length + o.2) := by
    rw [List.zipIdx_eq_map_add]
  simp only [numbered, opened_append, List.zipIdx_append, Nat.zero_add, List.map_append, hshift,
    List.map_map]
  congr 1
  refine List.map_congr_left fun o _ => ?_
  simp only [Function.comp_apply, next, Prod.mk.injEq, and_true]
  lia

@[simp] theorem numbered_empty : Fragment.numbered {} n = [] := rfl

@[simp] theorem numbered_opens (kind : BlockKind) (line : Int) :
    (opens kind line).numbered n = [(n, ⟨kind, line⟩)] := by
  simp [numbered, opens]

@[simp] theorem numbered_places (s : Stmt) : (places b s).numbered n = [] := rfl

@[simp] theorem numbered_passes (kind : TransferKind) (text : Option String) :
    (passes a b kind text).numbered n = [] := rfl

@[simp] theorem numbered_turns (kind : BlockKind) : (turns b kind).numbered n = [] := rfl

@[simp] theorem numbered_returnsFrom : (returnsFrom b).numbered n = [] := rfl

@[simp] theorem numbered_decides : decides.numbered n = [] := rfl

@[simp] theorem numbered_placing (statements : List Stmt) :
    (f.placing b statements).numbered n = f.numbered n := by
  simp only [numbered, opened_placing]

/-- A number is that of one block. -/
theorem numbered_inj {o o' : Opened} (h : (a, o) ∈ f.numbered n) (h' : (a, o') ∈ f.numbered n) : o = o' := by
  simp only [numbered, List.mem_map, Prod.exists, Prod.mk.injEq] at h h'
  obtain ⟨o, i, hi, ha, rfl⟩ := h
  obtain ⟨o', j, hj, ha', rfl⟩ := h'
  obtain rfl : i = j := by lia
  rw [List.mem_zipIdx_iff_getElem?] at hi hj
  exact Option.some.inj (hi.symm.trans hj)

/-- The blocks that open for handlers, with their numbers. -/
def openedHandlers (f : Fragment) (fresh : BlockId) : List (BlockId × Opened) :=
  (f.numbered fresh).filter fun o => o.2.kind = .handler

@[simp] theorem openedHandlers_append :
    (f ++ g).openedHandlers n = f.openedHandlers n ++ g.openedHandlers (f.next n) := by
  simp [openedHandlers]

/-- A block opens for something else than a handler. -/
def OpensOther (f : Fragment) (fresh a : BlockId) : Prop :=
  ∃ o, (a, o) ∈ f.numbered fresh ∧ o.kind ≠ .handler

@[simp] theorem opensOther_append :
    (f ++ g).OpensOther n a ↔ f.OpensOther n a ∨ g.OpensOther (f.next n) a := by
  simp [OpensOther, or_and_right, exists_or]

@[simp] theorem opensOther_opens (kind : BlockKind) (line : Int) :
    (opens kind line).OpensOther n a ↔ a = n ∧ kind ≠ .handler := by
  simp [OpensOther]

/-- The blocks to which control passes on an error, in the order of the transfers. -/
def errors (f : Fragment) : List BlockId := (f.transfers.filter fun t => t.kind = .error).map (·.target)

@[simp] theorem errors_append : (f ++ g).errors = f.errors ++ g.errors := by
  show ((f.transfers ++ g.transfers).filter _).map _ = _
  rw [List.filter_append, List.map_append]
  rfl

@[simp] theorem errors_empty : Fragment.errors {} = [] := rfl

@[simp] theorem errors_opens (kind : BlockKind) (line : Int) : (opens kind line).errors = [] := rfl

@[simp] theorem errors_places (s : Stmt) : (places b s).errors = [] := rfl

@[simp] theorem errors_passes (kind : TransferKind) (text : Option String) :
    (passes a b kind text).errors = if kind = .error then [b] else [] := by
  by_cases h : kind = .error <;> simp [errors, passes, h]

@[simp] theorem errors_turns (kind : BlockKind) : (turns b kind).errors = [] := rfl

@[simp] theorem errors_returnsFrom : (returnsFrom b).errors = [] := rfl

@[simp] theorem errors_decides : decides.errors = [] := rfl

@[simp] theorem errors_placing (statements : List Stmt) : (f.placing b statements).errors = f.errors := by
  simp only [errors, (f.placing_keeps b statements).2.1]

/-- **What a part of a layout adds.** Its surplus is some number of ways and one for each of some
handlers; these open the blocks of their kind, each of which is entered twice on an error; all
other control enters other blocks that open and some that are given. -/
structure Tallied (f : Fragment) (entered : BlockId → Prop) (fresh : BlockId) (ways : Int)
    (handlers : List Node) : Prop where
  surplus : f.surplus = ways + handlers.length
  errors : f.errors = (f.openedHandlers fresh).flatMap fun o => [o.1, o.1]
  opened : List.Forall₂ (fun n o => ∃ h, n = .handler h ∧ o.2.line = h.span.firstLine) handlers
    (f.openedHandlers fresh)
  other : ∀ t ∈ f.transfers, t.kind ≠ .error → entered t.target ∨ f.OpensOther fresh t.target

variable {entered entered' : BlockId → Prop} {ways ways' : Int} {handlers handlers' : List Node}

theorem Tallied.append {m : BlockId} (hf : f.Tallied entered n ways handlers) (hnext : f.next n = m)
    (hg : g.Tallied entered m ways' handlers') :
    (f ++ g).Tallied entered n (ways + ways') (handlers ++ handlers') := by
  subst hnext
  constructor
  case surplus =>
    rw [surplus_append, hf.surplus, hg.surplus, List.length_append]
    lia
  case errors => rw [errors_append, openedHandlers_append, List.flatMap_append, hf.errors, hg.errors]
  case opened =>
    rw [openedHandlers_append]
    exact List.rel_append hf.opened hg.opened
  case other =>
    intro t ht hkind
    rw [opensOther_append]
    rcases List.mem_append.1 ht with ht | ht
    · exact (hf.other t ht hkind).imp_right .inl
    · exact (hg.other t ht hkind).imp_right .inr

/-- The blocks that are entered may open in the part itself. -/
theorem Tallied.close (h : f.Tallied entered n ways handlers) (hways : ways = ways')
    (hhandlers : handlers = handlers') (hentered : ∀ a, entered a → entered' a ∨ f.OpensOther n a) :
    f.Tallied entered' n ways' handlers' where
  surplus := hways ▸ hhandlers ▸ h.surplus
  errors := h.errors
  opened := hhandlers ▸ h.opened
  other := fun t ht hkind => (h.other t ht hkind).elim (hentered t.target) .inr

theorem Tallied.mono (h : f.Tallied entered n ways handlers) (hentered : ∀ a, entered a → entered' a) :
    f.Tallied entered' n ways handlers :=
  h.close rfl rfl fun a ha => .inl (hentered a ha)

/-- A part without handlers. -/
theorem tallied_plain (f : Fragment) (n : BlockId) (entered : BlockId → Prop)
    (hopened : f.openedHandlers n = []) (herrors : f.errors = []) (hentered : ∀ a, f.Enters a → entered a) :
    f.Tallied entered n f.surplus [] where
  surplus := (Int.add_zero _).symm
  errors := by rw [herrors, hopened, List.flatMap_nil]
  opened := by
    rw [hopened]
    exact .nil
  other := fun t ht _ => .inl (hentered t.target ⟨t.source, t, ht, rfl, rfl⟩)

theorem tallied_passes (kind : TransferKind) (text : Option String) (hkind : kind ≠ .error)
    (hb : entered b) : (passes a b kind text).Tallied entered n 1 [] :=
  tallied_plain _ n _ rfl (by simp [hkind]) fun c hc => enters_passes.1 hc ▸ hb

theorem tallied_opens (n : BlockId) (entered : BlockId → Prop) (kind : BlockKind) (line : Int)
    (hkind : kind ≠ .handler) :
    (opens kind line).Tallied entered n (-1) [] :=
  tallied_plain _ n entered (by simp [openedHandlers, hkind]) rfl (by simp)

theorem tallied_places (s : Stmt) : (places b s).Tallied entered n 0 [] :=
  tallied_plain _ n entered rfl rfl (by simp)

theorem tallied_empty : Fragment.Tallied {} entered n 0 [] := tallied_plain _ n entered rfl rfl (by simp)

theorem tallied_placing (statements : List Stmt) : (placing {} b statements).Tallied entered n 0 [] := by
  have h := tallied_plain (placing {} b statements) n entered (by simp [openedHandlers]) (by simp) (by simp)
  rwa [surplus_placing, surplus_empty] at h

end Fragment

/-! ## Statements -/

variable {loop : Option Loop} {current fresh : BlockId}

/-- A list of statements is tallied wherever it is laid out. -/
def AllTallied (loop : Option Loop) (body : List Stmt) : Prop :=
  ∀ current fresh, (layOutAll loop current fresh body).1.Tallied (Loop.Ends loop) fresh 0 (allHandlers body)

theorem tallied_jump {target : BlockId} (htarget : Loop.Ends loop target) (kind : TransferKind)
    (hkind : kind ≠ .error) (line : Int) :
    (passes current target kind ++ opens .body line).Tallied (Loop.Ends loop) fresh 0 [] :=
  (tallied_passes kind none hkind htarget).append (next_passes ..) (tallied_opens _ _ .body line (by decide))

theorem tallied_ret (span : Span) (value : Option Expr) :
    (layOut loop current fresh (.at span (.ret value))).1.Tallied (Loop.Ends loop) fresh 0 [] := by
  have h := tallied_plain (layOut loop current fresh (.at span (.ret value))).1 fresh (Loop.Ends loop)
    (by simp [layOut, openedHandlers]) (by simp [layOut]) (by simp [layOut])
  simpa [layOut] using h

/-- An `else` part is one way on, whether it is there or not. -/
theorem elsePart_tallied (before after fresh : BlockId) (kind : TransferKind) (hkind : kind ≠ .error)
    (text : Option String) {orelse : List Stmt} (horelse : AllTallied loop orelse) :
    (elsePart loop before after fresh kind text orelse).Tallied (fun a => Loop.Ends loop a ∨ a = after)
      fresh 1 (allHandlers orelse) := by
  cases orelse with
  | nil => exact tallied_passes kind text hkind (.inr rfl)
  | cons s rest =>
    cases ho : layOutAll loop fresh (fresh + 1) (s :: rest) with
    | mk o last =>
      have hbody := ho ▸ horelse fresh (fresh + 1)
      simp only [elsePart, ho]
      have hstart := (tallied_opens fresh (fun a => Loop.Ends loop a ∨ a = after ∨ a = fresh)
        .body s.span.firstLine (by decide)).append (next_opens ..)
        (tallied_passes (a := before) (b := fresh) kind text hkind (.inr (.inr rfl)))
      have hall := (hstart.append (by simp [next_append]) (hbody.mono fun a ha => .inl ha)).append rfl
        (tallied_passes (a := last) (b := after) .unconditional none (by decide) (.inr (.inl rfl)))
      refine hall.close rfl (by simp) fun a ha => ?_
      rcases ha with ha | ha | rfl
      · exact .inl (.inl ha)
      · exact .inl (.inr ha)
      · exact .inr (by simp)

theorem tallied_ifElse (span : Span) (test : Expr) {body orelse : List Stmt} (hbody : AllTallied loop body)
    (horelse : AllTallied loop orelse) :
    (layOut loop current fresh (.at span (.ifElse test body orelse))).1.Tallied (Loop.Ends loop) fresh 0
      (allHandlers body ++ allHandlers orelse) := by
  cases hb : layOutAll loop fresh (fresh + 2) body with
  | mk b bodyEnd =>
    have hb' := hb ▸ hbody fresh (fresh + 2)
    rw [layOut_ifElse span test orelse hb]
    have ho := elsePart_tallied current (fresh + 1) (b.next (fresh + 2)) .whenFalse (by decide)
      (some (negated (conditionText test))) horelse
    have hstart := tallied_plain
      (decides ++ places current (testHeader test) ++ turns current .branch
        ++ opens .body (startLine body span.firstLine)
        ++ passes current fresh .whenTrue (some (conditionText test)) ++ opens .body span.lastLine)
      fresh (fun a => Loop.Ends loop a ∨ a = fresh ∨ a = fresh + 1)
      (by simp [openedHandlers]) (by simp) fun a ha => .inr (.inl (by simpa using ha))
    have hbody := hstart.append (by simp [next_append, Int.add_assoc]) (hb'.mono fun a ha => .inl ha)
    have hall := (hbody.append rfl
      (tallied_passes (a := bodyEnd) (b := fresh + 1) .unconditional none (by decide) (.inr (.inr rfl)))).append
      (by simp [next_append, Int.add_assoc]) (ho.mono fun a ha => ha.imp_right .inr)
    refine hall.close (by simp) (by simp) fun a ha => ?_
    rcases ha with ha | rfl | rfl
    · exact .inl ha
    · exact .inr (by simp [next_append])
    · exact .inr (by simp [next_append])

theorem tallied_loop (header : Stmt) (links : LoopLinks) (henter : links.enter ≠ .error)
    (hleave : links.leave ≠ .error) (span : Span) (bodyLine : Int) {body orelse : List Stmt}
    (hbody : ∀ inner, AllTallied (some inner) body) (horelse : AllTallied loop orelse) :
    (layOutLoop header links span bodyLine (orelse.head?.map (·.span.firstLine))
        (fun inner c f => layOutAll (some inner) c f body) (fun _ c f => layOutAll loop c f orelse)
        current fresh).1.Tallied (Loop.Ends loop) fresh 0 (allHandlers body ++ allHandlers orelse) := by
  cases hb : layOutAll (some ⟨fresh, fresh + 1⟩) (fresh + 2) (fresh + 3) body with
  | mk b bodyEnd =>
    have hb' := hb ▸ hbody ⟨fresh, fresh + 1⟩ (fresh + 2) (fresh + 3)
    -- what leaves the body by a jump goes to the guard or to the exit of this loop
    have hends : ∀ a, Loop.Ends (some ⟨fresh, fresh + 1⟩) a → a = fresh ∨ a = fresh + 1 := by
      rintro a ⟨l, hl, ha⟩
      obtain rfl := Option.some.inj hl
      exact ha
    rw [layOutLoop_eq header links span bodyLine orelse hb]
    have ho := elsePart_tallied fresh (fresh + 1) (b.next (fresh + 3)) links.leave hleave links.leaveText
      horelse
    have hstart := tallied_plain
      (decides ++ opens .loopHeader span.firstLine ++ passes current fresh .unconditional
        ++ places fresh header ++ opens .body span.lastLine ++ opens .loopBody bodyLine
        ++ passes fresh (fresh + 2) links.enter links.enterText)
      fresh (fun a => Loop.Ends loop a ∨ a = fresh ∨ a = fresh + 1 ∨ a = fresh + 2)
      (by simp [openedHandlers]) (by simp [henter]) fun a ha => by
        simp at ha
        lia
    have hall := ((hstart.append (by simp [next_append, Int.add_assoc])
      (hb'.mono fun a ha => .inr ((hends a ha).imp_right .inl))).append rfl
      (tallied_passes (a := bodyEnd) (b := fresh) .backEdge none (by decide) (.inr (.inl rfl)))).append
      (by simp [next_append, Int.add_assoc]) (ho.mono fun a ha => ha.imp_right fun ha => .inr (.inl ha))
    refine hall.close (by simp) (by simp) fun a ha => ?_
    rcases ha with ha | rfl | rfl | rfl
    · exact .inl ha
    all_goals exact .inr (by simp [next_append, Int.add_assoc])

theorem tallied_with (span : Span) (isAsync : Bool) (items : List WithItem) {body : List Stmt}
    (hbody : AllTallied loop body) :
    (layOut loop current fresh (.at span (.withItems isAsync items body))).1.Tallied (Loop.Ends loop) fresh 0
      (allHandlers body) := by
  rw [layOut_withItems span isAsync items rfl]
  exact (tallied_placing _).append (by simp) (hbody current fresh)

/-- Handlers are as many ways on as there are decisions, wherever they are laid out. -/
def HandlersTallied (loop : Option Loop) (handlers : List Handler) : Prop :=
  ∀ before bodyEnd after fresh,
    (layOutHandlers loop before bodyEnd after fresh handlers).Tallied (fun a => Loop.Ends loop a ∨ a = after)
      fresh 0 (collectHandlers (fun h => [.handler h]) (fun _ => []) handlers)

/-- The block of a handler opens, and is entered from two others. -/
theorem tallied_handler (fresh : BlockId) (entered : BlockId → Prop) (before bodyEnd : BlockId) (h : Handler)
    (condition : Option String) :
    (decides ++ opens .handler h.span.firstLine ++ passes before fresh .error condition
        ++ passes bodyEnd fresh .error condition).Tallied entered fresh (-1) [.handler h] where
  surplus := by simp
  errors := by simp [openedHandlers]
  opened := by simp [openedHandlers]
  other := by
    intro t ht hkind
    have herror : t.kind = .error := by
      rcases List.mem_append.1 ht with ht | ht
      · obtain rfl := List.mem_singleton.1 ht
        rfl
      · obtain rfl := List.mem_singleton.1 ht
        rfl
    exact absurd herror hkind

theorem handlersTallied_nil : HandlersTallied loop [] := fun _ _ _ _ => tallied_empty

theorem handlersTallied_cons (span : Span) (type : Option Expr) (name : Option String) {body : List Stmt}
    {rest : List Handler} (hbody : AllTallied loop body) (hrest : HandlersTallied loop rest) :
    HandlersTallied loop (.at span type name body :: rest) := by
  intro before bodyEnd after fresh
  cases hb : layOutAll loop fresh (fresh + 1) body with
  | mk b last =>
    have hb' := hb ▸ hbody fresh (fresh + 1)
    rw [layOutHandlers_cons before bodyEnd after span type name rest hb]
    have hstart := (tallied_handler fresh (fun a => Loop.Ends loop a ∨ a = after) before
      bodyEnd (.at span type name body) (type.map conditionText)).append rfl (tallied_placing
        (b := fresh) (type.map (bindingHeader (name.map (handlerTarget span)))).toList)
    have hall := ((hstart.append (by simp [next_append]) (hb'.mono fun a ha => .inl ha)).append rfl
      (tallied_passes (a := last) (b := after) .unconditional none (by decide) (.inr rfl))).append
      (by simp [next_append]) (hrest before bodyEnd after (b.next (fresh + 1)))
    exact hall.close rfl (by simp [collectHandlers, allHandlers]) fun a ha => .inl ha

/-- Cases are as many ways on as there are decisions, wherever they are laid out. -/
def CasesTallied (loop : Option Loop) (cases : List Case) : Prop :=
  ∀ branch after fresh,
    (layOutCases loop branch after fresh cases).Tallied (fun a => Loop.Ends loop a ∨ a = after) fresh 0
      (collectCases (fun h => [.handler h]) (fun _ => []) cases)

theorem casesTallied_nil : CasesTallied loop [] := fun _ _ _ => tallied_empty

theorem casesTallied_cons (p : Code.Pattern) (guard : Option Expr) {body : List Stmt} {rest : List Case}
    (hbody : AllTallied loop body) (hrest : CasesTallied loop rest) :
    CasesTallied loop (.of p guard body :: rest) := by
  intro branch after fresh
  cases hb : layOutAll loop fresh (fresh + 1) body with
  | mk b last =>
    have hb' := hb ▸ hbody fresh (fresh + 1)
    simp only [layOutCases, hb]
    have hstart := tallied_plain
      (decides ++ opens .body p.span.firstLine ++ passes branch fresh .case (some (patternText p)))
      fresh (fun a => Loop.Ends loop a ∨ a = after ∨ a = fresh)
      (by simp [openedHandlers]) (by simp) fun a ha => .inr (.inr (by simpa using ha))
    have hall := ((hstart.append (by simp [next_append]) (hb'.mono fun a ha => .inl ha)).append rfl
      (tallied_passes (a := last) (b := after) .unconditional none (by decide) (.inr (.inl rfl)))).append rfl
      ((hrest branch after _).mono fun a ha => ha.imp_right .inl)
    refine hall.close (by simp) (by simp [collectCases, allHandlers]) fun a ha => ?_
    rcases ha with ha | ha | rfl
    · exact .inl (.inl ha)
    · exact .inl (.inr ha)
    · exact .inr (by simp)

theorem tallied_match (span : Span) (subject : Expr) {cases : List Case} (hcases : CasesTallied loop cases) :
    (layOut loop current fresh (.at span (.matchCases subject cases))).1.Tallied (Loop.Ends loop) fresh 0
      (collectCases (fun h => [.handler h]) (fun _ => []) cases) := by
  simp only [layOut]
  have hstart := tallied_plain
      (places current (testHeader subject) ++ turns current .branch ++ opens .body span.lastLine)
      fresh (fun a => Loop.Ends loop a ∨ a = fresh)
    (by simp [openedHandlers]) (by simp) (by simp)
  have hall := (hstart.append (by simp [next_append]) (hcases current fresh (fresh + 1))).append rfl
    (tallied_passes (a := current) (b := fresh) .whenFalse none (by decide) (.inr rfl))
  refine hall.close (by simp) (by simp) fun a ha => ?_
  rcases ha with ha | rfl
  · exact .inl ha
  · exact .inr (by simp [next_append])

theorem tallied_try (span : Span) (isGroup : Bool) {body : List Stmt} {handlers : List Handler}
    {orelse finalbody : List Stmt} (hbody : AllTallied loop body) (hhandlers : HandlersTallied loop handlers)
    (horelse : AllTallied loop orelse) (hfinal : AllTallied loop finalbody) :
    (layOut loop current fresh (.at span (.tryBlock isGroup body handlers orelse finalbody))).1.Tallied
      (Loop.Ends loop) fresh 0 (allHandlers body
        ++ collectHandlers (fun h => [.handler h]) (fun _ => []) handlers ++ allHandlers orelse
        ++ allHandlers finalbody) := by
  cases hb : layOutAll loop fresh (fresh + 1) body with
  | mk b bodyEnd =>
    have hb' := hb ▸ hbody fresh (fresh + 1)
    generalize hafter : b.next (fresh + 1) = after
    rw [layOut_tryBlock span isGroup handlers orelse finalbody hb hafter]
    have hh := hhandlers current bodyEnd after (after + 1)
    generalize layOutHandlers loop current bodyEnd after (after + 1) handlers = hs at hh ⊢
    have ho := elsePart_tallied bodyEnd after (hs.next (after + 1)) .unconditional (by decide) none
      horelse
    have hf := hfinal after ((elsePart loop bodyEnd after (hs.next (after + 1)) .unconditional none orelse).next
      (hs.next (after + 1)))
    have hstart := tallied_plain
      (opens .body (startLine body span.firstLine) ++ passes current fresh .unconditional)
      fresh (fun a => Loop.Ends loop a ∨ a = after ∨ a = fresh)
      (by simp [openedHandlers]) (by simp) fun a ha => .inr (.inr (by simpa using ha))
    have htry := (hstart.append (by simp [next_append]) (hb'.mono fun a ha => .inl ha)).append
      (by simp [next_append, hafter]) (tallied_opens after _ .body span.lastLine (by decide))
    have hall := ((htry.append (by simp [next_append, hafter]) (hh.mono fun a ha => ha.imp_right .inl)).append
      (by simp [next_append, hafter]) (ho.mono fun a ha => ha.imp_right .inl)).append
      (by simp [next_append, hafter]) (hf.mono fun a ha => .inl ha)
    refine hall.close (by simp) (by simp) fun a ha => ?_
    rcases ha with ha | rfl | rfl
    · exact .inl ha
    · exact .inr (by simp [next_append, hafter])
    · exact .inr (by simp)

theorem allTallied_nil : AllTallied loop [] := fun _ _ => tallied_empty

theorem allTallied_cons {s : Stmt} {rest : List Stmt}
    (hs : ∀ current fresh, (layOut loop current fresh s).1.Tallied (Loop.Ends loop) fresh 0
      (s.collect (fun h => [.handler h]) fun _ => []))
    (hrest : AllTallied loop rest) : AllTallied loop (s :: rest) := fun current fresh =>
  (hs current fresh).append rfl (hrest _ _)

mutual

/-- **A statement is tallied where it is laid out**, whatever its form. -/
theorem layOut_tallied (loop : Option Loop) : ∀ (s : Stmt) (current fresh : BlockId),
    (layOut loop current fresh s).1.Tallied (Loop.Ends loop) fresh 0
      (s.collect (fun h => [.handler h]) fun _ => [])
  | .at span form, current, fresh => by
    cases form with
    | ifElse test body orelse =>
      exact tallied_ifElse span test (layOutAll_tallied loop body) (layOutAll_tallied loop orelse)
    | whileLoop test body orelse =>
      simp only [layOut]
      exact tallied_loop _ _ (by simp [whileLinks]) (by simp [whileLinks]) span _
        (fun inner => layOutAll_tallied (some inner) body) (layOutAll_tallied loop orelse)
    | forLoop isAsync target iter body orelse =>
      simp only [layOut]
      exact tallied_loop _ _ (by simp [forLinks]) (by simp [forLinks]) span _
        (fun inner => layOutAll_tallied (some inner) body) (layOutAll_tallied loop orelse)
    | withItems isAsync items body => exact tallied_with span isAsync items (layOutAll_tallied loop body)
    | tryBlock isGroup body handlers orelse finalbody =>
      exact tallied_try span isGroup (layOutAll_tallied loop body) (layOutHandlers_tallied loop handlers)
        (layOutAll_tallied loop orelse) (layOutAll_tallied loop finalbody)
    | matchCases subject cases => exact tallied_match span subject (layOutCases_tallied loop cases)
    | ret value => exact tallied_ret span value
    | breakLoop =>
      cases loop with
      | none => exact tallied_empty
      | some l => exact tallied_jump ⟨l, rfl, .inr rfl⟩ .breakOut (by decide) span.firstLine
    | continueLoop =>
      cases loop with
      | none => exact tallied_empty
      | some l => exact tallied_jump ⟨l, rfl, .inl rfl⟩ .continueLoop (by decide) span.firstLine
    | _ => exact tallied_places _

theorem layOutAll_tallied (loop : Option Loop) : ∀ body : List Stmt, AllTallied loop body
  | [] => allTallied_nil
  | s :: rest => allTallied_cons (layOut_tallied loop s) (layOutAll_tallied loop rest)

theorem layOutHandlers_tallied (loop : Option Loop) : ∀ handlers : List Handler, HandlersTallied loop handlers
  | [] => handlersTallied_nil
  | .at span type name body :: rest =>
    handlersTallied_cons span type name (layOutAll_tallied loop body) (layOutHandlers_tallied loop rest)

theorem layOutCases_tallied (loop : Option Loop) : ∀ cases : List Case, CasesTallied loop cases
  | [] => casesTallied_nil
  | .of p guard body :: rest =>
    casesTallied_cons p guard (layOutAll_tallied loop body) (layOutCases_tallied loop rest)

end

/-! ## Graphs -/

namespace Fragment.Tallied

variable {f : Fragment} {entered : BlockId → Prop} {n a : BlockId} {ways : Int} {handlers : List Node}
  {o : Opened}

/-- Each handler has a block of its own. -/
theorem nodup_openedHandlers (f : Fragment) (n : BlockId) : ((f.openedHandlers n).map (·.1)).Nodup := by
  have hnumbers : (f.numbered n).map (·.1) = (List.range' 0 f.opened.length).map fun i : Nat => n + i := by
    rw [numbered, List.map_map, ← List.zipIdx_map_snd, List.map_map]
    rfl
  have hnodup : ((f.numbered n).map (·.1)).Nodup := by
    rw [hnumbers]
    refine List.Nodup.map (fun i j hij => ?_) (List.nodup_range' (h := by decide))
    exact Int.ofNat.inj (by simpa using hij)
  exact hnodup.sublist (List.filter_sublist.map _)

theorem count_flatMap_twice (a : BlockId) (os : List (BlockId × Opened)) :
    (os.flatMap fun o => [o.1, o.1]).count a = 2 * (os.map (·.1)).count a := by
  induction os with
  | nil => rfl
  | cons o os ih =>
    rw [List.flatMap_cons, List.count_append, ih, List.map_cons]
    by_cases h : o.1 = a <;> simp [h]
    omega

/-- **The block of a handler is entered by two transfers**, both on an error. -/
theorem entered_twice (h : f.Tallied entered n ways handlers) (ho : (a, o) ∈ f.openedHandlers n)
    (ha : ¬ entered a) : (f.transfers.filter fun t => t.target = a).map (·.kind) = [.error, .error] := by
  have hkind : ∀ t ∈ f.transfers, t.target = a → t.kind = .error := by
    intro t ht htarget
    by_contra hne
    obtain ⟨ho, hhandler⟩ := List.mem_filter.1 ho
    obtain ⟨o', ho', hother⟩ := (h.other t ht hne).resolve_left (htarget ▸ ha)
    exact hother (by simpa [numbered_inj (htarget ▸ ho') ho] using hhandler)
  have herrors : f.transfers.filter (fun t => t.target = a) =
      (f.transfers.filter fun t => t.kind = .error).filter fun t => t.target = a := by
    rw [List.filter_filter]
    refine List.filter_congr fun t ht => ?_
    by_cases htarget : t.target = a
    · simp [htarget, hkind t ht htarget]
    · simp [htarget]
  have htwice : f.errors.count a = 2 := by
    rw [h.errors, count_flatMap_twice, List.count_eq_one_of_mem (nodup_openedHandlers f n)
      (List.mem_map.2 ⟨_, ho, rfl⟩)]
  refine (List.eq_replicate_iff (n := 2)).2 ⟨?_, fun kind hmem => ?_⟩
  · rw [List.length_map, herrors, ← htwice, Fragment.errors, List.count_eq_countP, List.countP_map,
      List.countP_eq_length_filter]
    rfl
  · obtain ⟨t, ht, rfl⟩ := List.mem_map.1 hmem
    obtain ⟨ht, htarget⟩ := List.mem_filter.1 ht
    exact hkind t ht (by simpa using htarget)

end Fragment.Tallied

/-- The cyclomatic number of a graph in one piece: its transfers less its blocks, and two. -/
def Graph.cyclomatic (g : Graph) : Int := g.transfers.length - g.blocks.length + 2

/-- A graph with one more block, to which control passes from all exits. -/
def Graph.joined (g : Graph) : Graph :=
  let last : BlockId := g.blocks.length
  { g with
    blocks := (g.blocks.map fun b => if b.id ∈ g.exits then { b with succs := b.succs ++ [last] } else b)
      ++ [{ id := last, kind := .exit, preds := g.exits }]
    transfers := g.transfers ++ g.exits.map fun a => { source := a, target := last, kind := .unconditional }
    exits := [last] }

/-- How the complexity of a graph of a body relates to its shape. -/
structure Graph.Tallied (g : Graph) (body : List Stmt) : Prop where
  /-- No exit is listed twice. -/
  once : g.exits.Nodup
  /-- Transfers and exits balance blocks, complexity and handlers. -/
  balance : g.transfers.length + g.exits.length + 1 =
    g.blocks.length + g.complexity + (allHandlers body).length
  /-- The complexity is the cyclomatic number of the graph with its exits joined, less one for
  each handler. -/
  cyclomatic : g.complexity = g.joined.cyclomatic - (allHandlers body).length
  /-- The handlers have a block each, in the order of the source, and it is entered by two
  transfers. -/
  handlers : ∃ bs : List Block, bs.Sublist g.blocks ∧
    List.Forall₂ (fun n b => ∃ h, n = .handler h ∧ b.firstLine = h.span.firstLine ∧
      (g.transfers.filter fun t => t.target = b.id).map (·.kind) = [.error, .error]) (allHandlers body) bs

theorem Fragment.Tallied.toGraph {F : Fragment} {handlers : List Node}
    (h : F.Tallied (Loop.Ends none) 0 (-1) handlers) (name : String) (last : BlockId) {body : List Stmt}
    (hbody : allHandlers body = handlers) (honce : (F.toGraph name last).exits.Nodup) :
    (F.toGraph name last).Tallied body := by
  subst hbody
  have hsurplus := h.surplus
  have hblocks : (F.toGraph name last).blocks.length = F.opened.length := by simp [Fragment.toGraph]
  have hexits : (F.toGraph name last).exits.length = F.returns.length + 1 := by simp [Fragment.toGraph]
  have htransfers : (F.toGraph name last).transfers = F.transfers := rfl
  have hcomplexity : (F.toGraph name last).complexity = F.decisions + 1 := rfl
  rw [Fragment.surplus] at hsurplus
  constructor
  case once => exact honce
  case balance =>
    rw [hblocks, hexits, htransfers, hcomplexity]
    lia
  case cyclomatic =>
    simp only [Graph.cyclomatic, Graph.joined, List.length_append, List.length_map, List.length_singleton,
      hblocks, hexits, htransfers, hcomplexity]
    lia
  case handlers =>
    have hsublist : ((F.openedHandlers 0).map fun o => F.blockOf last o.1 o.2).Sublist
        (F.toGraph name last).blocks := by
      have hall : (F.toGraph name last).blocks = (F.numbered 0).map fun o => F.blockOf last o.1 o.2 := by
        simp [Fragment.toGraph, numbered, List.map_map, Function.comp_def]
      rw [hall]
      exact List.filter_sublist.map _
    have hentered : ∀ o ∈ F.openedHandlers 0,
        (F.transfers.filter fun t => t.target = o.1).map (·.kind) = [.error, .error] :=
      fun o ho => h.entered_twice ho (by simp [Loop.Ends])
    refine ⟨_, hsublist, List.forall₂_map_right_iff.2 ?_⟩
    have hpairs := (List.forall₂_and_left (F.openedHandlers 0) (allHandlers body)).2 ⟨hentered, h.opened.flip⟩
    refine hpairs.flip.imp fun n o hboth => ?_
    obtain ⟨hblock, node, hn, hline⟩ := hboth
    exact ⟨node, hn, hline, hblock⟩

theorem Graph.ofBody_tallied (name : String) (line : Int) {bindings : List Stmt}
    (hbindings : ∀ s ∈ bindings, s.isReturn = false) (body : List Stmt) :
    (Graph.ofBody name line bindings body).Tallied body := by
  have honce := (Graph.ofBody_wellFormed name line hbindings body).once
  cases hf : layOutAll none 0 1 body with
  | mk f last =>
    rw [Graph.ofBody_eq name line bindings hf] at honce ⊢
    have hbody := hf ▸ layOutAll_tallied none body 0 1
    have hentry := tallied_plain ((opens .entry line).placing 0 bindings) 0 (Loop.Ends none)
      (by simp [openedHandlers]) (by simp) (by simp)
    have hall : Fragment.Tallied _ (Loop.Ends none) 0 (-1) (allHandlers body) :=
      (hentry.append (by simp) hbody).close (by simp) (List.nil_append _) fun a ha => .inl ha
    exact hall.toGraph name last rfl honce

/-- **The complexity of a graph agrees with its shape**, for module-level code and for functions:
its transfers and exits, and one, are as many as its blocks, its complexity and its handlers.
The complexity is the cyclomatic number of the graph with one exit, less one for each handler,
which is entered twice. -/
theorem Graph.complexity_tallied :
    (∀ m : Module, (Graph.ofModule m).Tallied m.body) ∧
      ∀ (span : Span) (isAsync : Bool) (name : String) (ps : Parameters) (body : List Stmt)
        (decorators : List Expr) (returns : Option Expr),
        ∃ g, Graph.ofFunction? (.at span (.function isAsync name ps body decorators returns)) = some g ∧
          g.Tallied body := by
  refine ⟨fun m => Graph.ofBody_tallied _ _ (by simp) m.body,
    fun span isAsync name ps body decorators returns => ⟨_, rfl, ?_⟩⟩
  refine Graph.ofBody_tallied name _ (fun s hs => ?_) body
  obtain ⟨p, -, rfl⟩ := List.mem_map.1 hs
  rfl

end Reaching
