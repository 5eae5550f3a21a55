/-
Loops of a body, and the blocks that hold their headers.

A loop opens one block for its header, and nothing else is placed there: its body, its `else`
part and what stands behind the loop go into other blocks, and no other statement opens a block of
this kind or turns one into it. So the header blocks of a layout hold the headers of its
loops, in the order of the source (`Heads`). Control turns back to these blocks only, and every way
around leads through one of them (`Graph.cycles_through_headers`).
-/
import Reaching.Proofs.Advance

namespace Reaching

open Code Fragment

/-! ## Loops -/

/-- The header of a loop: its test, or the binding of its target. -/
def Code.Stmt.loopHeader? (s : Stmt) : Option Stmt :=
  match s.form with
  | .whileLoop test _ _ => some (testHeader test)
  | .forLoop _ target iter _ _ => some (bindingHeader (some target) iter)
  | _ => none

mutual

/-- The loops in a statement at any depth, in the order of the source. Definitions are
not looked into. -/
def Code.Stmt.loops : Stmt → List Stmt
  | .at _ (.ifElse _ body orelse) => allLoops body ++ allLoops orelse
  | .at span (.whileLoop test body orelse) =>
    .at span (.whileLoop test body orelse) :: (allLoops body ++ allLoops orelse)
  | .at span (.forLoop isAsync target iter body orelse) =>
    .at span (.forLoop isAsync target iter body orelse) :: (allLoops body ++ allLoops orelse)
  | .at _ (.withItems _ _ body) => allLoops body
  | .at _ (.tryBlock _ body handlers orelse finalbody) =>
    allLoops body ++ handlersLoops handlers ++ allLoops orelse ++ allLoops finalbody
  | .at _ (.matchCases _ cases) => casesLoops cases
  | .at _ _ => []

/-- The loops of a body at any depth. -/
def allLoops : List Stmt → List Stmt
  | [] => []
  | s :: rest => s.loops ++ allLoops rest

/-- The loops of handlers. -/
def handlersLoops : List Handler → List Stmt
  | [] => []
  | .at _ _ _ body :: rest => allLoops body ++ handlersLoops rest

/-- The loops of cases. -/
def casesLoops : List Case → List Stmt
  | [] => []
  | .of _ _ body :: rest => allLoops body ++ casesLoops rest

end

/-! ## Header blocks of a fragment -/

namespace Fragment

variable {f g : Fragment} {n a b : BlockId}

/-- The blocks that a fragment opens for headers of loops. -/
def headers (f : Fragment) (fresh : BlockId) : List BlockId :=
  (f.opened.zipIdx.filter fun o => o.1.kind = .loopHeader).map fun o => fresh + o.2

@[simp] theorem headers_append : (f ++ g).headers n = f.headers n ++ g.headers (f.next n) := by
  have hshift : g.opened.zipIdx f.opened.length =
      g.opened.zipIdx.map fun o => (o.1, f.opened.length + o.2) := by
    rw [List.zipIdx_eq_map_add]
  simp only [headers, opened_append, List.zipIdx_append, Nat.zero_add, List.filter_append, List.map_append,
    hshift, List.filter_map, List.map_map]
  congr 1
  refine List.map_congr_left fun o _ => ?_
  simp only [Function.comp_apply, next]
  lia

theorem headers_eq_nil (h : f.opened = []) : f.headers n = [] := by simp [headers, h]

@[simp] theorem headers_opens (kind : BlockKind) (line : Int) :
    (opens kind line).headers n = if kind = .loopHeader then [n] else [] := by
  by_cases h : kind = .loopHeader <;> simp [headers, opens, h]

@[simp] theorem headers_empty : Fragment.headers {} n = [] := headers_eq_nil rfl

@[simp] theorem headers_places (s : Stmt) : (places b s).headers n = [] := headers_eq_nil rfl

@[simp] theorem headers_passes (kind : TransferKind) (text : Option String) :
    (passes a b kind text).headers n = [] := headers_eq_nil rfl

@[simp] theorem headers_turns (kind : BlockKind) : (turns b kind).headers n = [] := headers_eq_nil rfl

@[simp] theorem headers_returnsFrom : (returnsFrom b).headers n = [] := headers_eq_nil rfl

@[simp] theorem headers_decides : decides.headers n = [] := headers_eq_nil rfl

@[simp] theorem headers_placing (statements : List Stmt) :
    (f.placing b statements).headers n = f.headers n := by
  simp only [headers, opened_placing]

/-- Header blocks are among the blocks that open. -/
theorem mem_headers (h : a ∈ f.headers n) : n ≤ a ∧ a < f.next n := by
  obtain ⟨o, ho, rfl⟩ := List.mem_map.1 h
  have hlt := List.snd_lt_of_mem_zipIdx (List.mem_filter.1 ho).1
  simp only [next]
  lia

/-- The last block of a part is no header block if the part starts in none. -/
theorem not_mem_headers_append {m : BlockId} (hnext : f.next n = m) (hfirst : a ∉ f.headers n)
    (hlast : b ∉ g.headers m) (h : b = a ∨ m ≤ b) : b ∉ (f ++ g).headers n := by
  rw [headers_append, List.mem_append, hnext]
  rintro (hmem | hmem)
  · rcases h with rfl | h
    · exact hfirst hmem
    · have := (mem_headers hmem).2
      lia
  · exact hlast hmem

/-! Blocks that turn into ones of another kind. -/

/-- A block turns into one of some kind. -/
def Turned (f : Fragment) (a : BlockId) (kind : BlockKind) : Prop := (a, kind) ∈ f.turned

section
variable {kind kind' : BlockKind}

@[simp] theorem turned_append : (f ++ g).Turned a kind ↔ f.Turned a kind ∨ g.Turned a kind :=
  List.mem_append

@[simp] theorem turned_turns : (turns b kind').Turned a kind ↔ a = b ∧ kind = kind' := by
  simp [Turned, turns]

@[simp] theorem turned_empty : ¬ Fragment.Turned {} a kind := List.not_mem_nil

@[simp] theorem turned_opens {line : Int} : ¬ (opens kind' line).Turned a kind := List.not_mem_nil

@[simp] theorem turned_places {s : Stmt} : ¬ (places b s).Turned a kind := List.not_mem_nil

@[simp] theorem turned_passes {c : BlockId} {how : TransferKind} {text : Option String} :
    ¬ (passes b c how text).Turned a kind := List.not_mem_nil

@[simp] theorem turned_returnsFrom : ¬ (returnsFrom b).Turned a kind := List.not_mem_nil

@[simp] theorem turned_decides : ¬ decides.Turned a kind := List.not_mem_nil

@[simp] theorem turned_placing {statements : List Stmt} :
    (f.placing b statements).Turned a kind ↔ f.Turned a kind := by
  unfold placing
  induction statements generalizing f with
  | nil => rfl
  | cons s rest ih => simp [ih]

end

/-- The header blocks of a fragment hold the headers of some loops, one block for each of them;
none of them becomes a block of another kind, no other block becomes one of theirs, and
control turns back to them only, or to some outer ones. -/
structure Heads (f : Fragment) (outer : BlockId → Prop) (fresh : BlockId) (loops : List Stmt) : Prop where
  below : ∀ a, f.next fresh ≤ a → f.statementsOf a = []
  hold : (f.headers fresh).map (fun a => (f.statementsOf a).map some) = loops.map fun s => [s.loopHeader?]
  kept : ∀ a ∈ f.headers fresh, ∀ kind, ¬ f.Turned a kind
  turned : ∀ a kind, f.Turned a kind → f.statementsOf a ≠ [] ∧ kind ≠ .loopHeader
  back : ∀ a b, f.Moves true a b → b ∈ f.headers fresh ∨ outer b

variable {m : BlockId} {outer outer' : BlockId → Prop} {loops loops' : List Stmt}

/-- A fragment without header blocks. -/
theorem Heads.of_none (hbelow : ∀ a, f.next n ≤ a → f.statementsOf a = []) (hheaders : f.headers n = [])
    (hturned : ∀ a kind, f.Turned a kind → f.statementsOf a ≠ [] ∧ kind ≠ .loopHeader)
    (hback : ∀ a b, f.Moves true a b → outer b) : f.Heads outer n [] where
  below := hbelow
  hold := by simp [hheaders]
  kept := by simp [hheaders]
  turned := hturned
  back := fun a b hab => .inr (hback a b hab)

/-- **Joined parts have the header blocks of both**, if the second one places no statement in
those of the first. -/
theorem Heads.append (hf : f.Heads outer n loops) (hnext : f.next n = m) (hg : g.Heads outer m loops')
    (hclear : ∀ a ∈ f.headers n, g.statementsOf a = []) : (f ++ g).Heads outer n (loops ++ loops') := by
  subst hnext
  have hbehind : ∀ a ∈ g.headers (f.next n), f.statementsOf a = [] :=
    fun a ha => hf.below a (mem_headers ha).1
  constructor
  case below =>
    intro a ha
    rw [next_append] at ha
    have := g.le_next (f.next n)
    rw [statementsOf_append, hf.below a (by lia), hg.below a ha, List.append_nil]
  case hold =>
    have hleft : (f.headers n).map (fun a => ((f ++ g).statementsOf a).map some) =
        (f.headers n).map fun a => (f.statementsOf a).map some :=
      List.map_congr_left fun a ha => by rw [statementsOf_append, hclear a ha, List.append_nil]
    have hright : (g.headers (f.next n)).map (fun a => ((f ++ g).statementsOf a).map some) =
        (g.headers (f.next n)).map fun a => (g.statementsOf a).map some :=
      List.map_congr_left fun a ha => by rw [statementsOf_append, hbehind a ha, List.nil_append]
    rw [headers_append, List.map_append, List.map_append, hleft, hright, hf.hold, hg.hold]
  case kept =>
    intro a ha kind hk
    rw [headers_append, List.mem_append] at ha
    rcases ha with ha | ha <;> rcases turned_append.1 hk with hk | hk
    · exact hf.kept a ha kind hk
    · exact (hg.turned a kind hk).1 (hclear a ha)
    · exact (hf.turned a kind hk).1 (hbehind a ha)
    · exact hg.kept a ha kind hk
  case turned =>
    intro a kind hk
    rcases turned_append.1 hk with hk | hk
    · simp [(hf.turned a kind hk).1, (hf.turned a kind hk).2]
    · simp [(hg.turned a kind hk).1, (hg.turned a kind hk).2]
  case back =>
    intro a b hab
    rw [headers_append, List.mem_append]
    rcases moves_append.1 hab with hab | hab
    · exact (hf.back a b hab).imp_left .inl
    · exact (hg.back a b hab).imp_left .inr

theorem heads_empty : Fragment.Heads {} outer n [] :=
  .of_none (fun _ _ => rfl) headers_empty (fun _ _ h => absurd h turned_empty) fun _ _ h => absurd h moves_empty

theorem Heads.mono (hf : f.Heads outer n loops) (h : ∀ b, outer b → b ∈ f.headers n ∨ outer' b) :
    f.Heads outer' n loops :=
  { hf with back := fun a b hab => (hf.back a b hab).elim .inl (h b) }

/-- Control passes on at the end of a part. -/
theorem Heads.pass (hf : f.Heads outer n loops) (a b : BlockId) (kind : TransferKind)
    (text : Option String) (hback : kind.turnsBack = true → outer b) :
    (f ++ passes a b kind text).Heads outer n loops := by
  have hpass : (passes a b kind text).Heads outer (f.next n) [] :=
    .of_none (by simp) (headers_passes ..) (fun _ _ h => absurd h turned_passes) fun c d hcd => by
      obtain ⟨hkind, -, rfl⟩ := moves_passes.1 hcd
      exact hback hkind
  simpa using hf.append rfl hpass (by simp)

/-- A block opens behind a part. -/
theorem Heads.open (hf : f.Heads outer n loops) (kind : BlockKind) (line : Int)
    (hkind : kind ≠ .loopHeader) : (f ++ opens kind line).Heads outer n loops := by
  have hopens : (opens kind line).Heads outer (f.next n) [] :=
    .of_none (by simp) (by simp [hkind]) (fun _ _ h => absurd h turned_opens) fun _ _ h => absurd h moves_opens
  simpa using hf.append rfl hopens (by simp)

/-- The header blocks of a part that places statements only in blocks of its own. -/
structure OwnHeads (f : Fragment) (outer : BlockId → Prop) (fresh : BlockId) (loops : List Stmt) : Prop
    extends f.Heads outer fresh loops where
  own : ∀ a, a < fresh → f.statementsOf a = []

theorem Heads.append_own (hf : f.Heads outer n loops) (hnext : f.next n = m)
    (hg : g.OwnHeads outer m loops') : (f ++ g).Heads outer n (loops ++ loops') :=
  hf.append hnext hg.toHeads fun a ha => hg.own a (hnext ▸ (mem_headers ha).2)

end Fragment

/-- The header of the innermost loop, to which `continue` passes control. -/
def Loop.Guard (loop : Option Loop) (b : BlockId) : Prop := ∃ l, loop = some l ∧ b = l.guard

/-- A part of a body has header blocks for its loops, and none of them is its last block. -/
structure Headed (loop : Option Loop) (fresh : BlockId) (laid : Laid) (loops : List Stmt) : Prop
    extends laid.1.Heads (Loop.Guard loop) fresh loops where
  last : laid.2 ∉ laid.1.headers fresh

/-- A list of statements has header blocks for its loops, wherever it is laid out. -/
def AllHeaded (loop : Option Loop) (body : List Stmt) : Prop :=
  ∀ current fresh, current < fresh →
    Headed loop fresh (layOutAll loop current fresh body) (allLoops body)

variable {loop : Option Loop} {current fresh : BlockId}

/-- What is laid out in a block and behind it places nothing in the blocks before. -/
theorem Lies.statementsOf_eq_nil {f : Fragment} {last a : BlockId}
    (h : Lies loop current fresh (f, last)) (hne : a ≠ current) (hlt : a < fresh) :
    f.statementsOf a = [] := by
  refine Fragment.statementsOf_eq_nil fun ht => ?_
  rcases h.within.touches a ht with ha | ⟨ha, -⟩
  · exact hne ha
  · lia

/-- A body goes into a block that opens for it. -/
theorem AllHeaded.part {body : List Stmt} (h : AllHeaded loop body) {b : Fragment} {first bodyEnd : BlockId}
    (hfirst : first < fresh) (hb : layOutAll loop first fresh body = (b, bodyEnd)) :
    b.Heads (Loop.Guard loop) fresh (allLoops body) ∧
      (bodyEnd ∉ b.headers fresh ∧ (bodyEnd = first ∨ fresh ≤ bodyEnd)) ∧
      ∀ a, a ≠ first → a < fresh → b.statementsOf a = [] := by
  have hheaded := hb ▸ h first fresh hfirst
  have hlies := hb ▸ layOutAll_lies loop body first fresh hfirst
  exact ⟨hheaded.toHeads, ⟨hheaded.last, hlies.last.imp_right And.left⟩, fun a => hlies.statementsOf_eq_nil⟩

/-! ## Simple statements and jumps -/

theorem headed_places (h : current < fresh) (s : Stmt) :
    Headed loop fresh (places current s, current) [] where
  toHeads := by
    refine .of_none (fun a ha => ?_) (headers_places _) (fun _ _ h => absurd h turned_places)
      fun _ _ h => absurd h moves_places
    rw [next_places] at ha
    exact (statementsOf_places ..).trans (if_neg (by lia))
  last := List.not_mem_nil

theorem headed_nothing : Headed loop fresh ({}, current) [] where
  toHeads := heads_empty
  last := List.not_mem_nil

theorem headed_ret (h : current < fresh) (span : Span) (value : Option Expr) :
    Headed loop fresh (layOut loop current fresh (.at span (.ret value))) [] where
  toHeads := by
    refine .of_none (fun a ha => ?_) (by simp [layOut]) (fun a kind hk => ?_) fun a b hab => ?_
    · simp [layOut, next_append, statementsOf_places] at ha ⊢
      lia
    · simp [layOut, statementsOf_places] at hk ⊢
      simp [hk]
    · simp [layOut] at hab
  last := by simp [layOut]

theorem headed_jump {target : BlockId} {kind : TransferKind}
    (htarget : kind.turnsBack = true → Loop.Guard loop target) (line : Int) :
    Headed loop fresh (passes current target kind ++ opens .body line, fresh) [] where
  toHeads := by
    refine .of_none (by simp) (by simp) (fun a kind h => by simp at h) fun a b h => ?_
    simp at h
    obtain ⟨hkind, -, rfl⟩ := h
    exact htarget hkind
  last := by simp

/-! ## Statements with parts -/

theorem elsePart_heads (before after fresh : BlockId) (kind : TransferKind) (text : Option String)
    (hkind : kind.turnsBack = false) {orelse : List Stmt} (horelse : AllHeaded loop orelse) :
    (elsePart loop before after fresh kind text orelse).OwnHeads (Loop.Guard loop) fresh
      (allLoops orelse) := by
  have hpass : kind.turnsBack = true → ∀ b, Loop.Guard loop b := by simp [hkind]
  cases orelse with
  | nil =>
    refine ⟨?_, fun _ _ => rfl⟩
    exact heads_empty.pass before after kind text fun h => hpass h after
  | cons s rest =>
    cases ho : layOutAll loop fresh (fresh + 1) (s :: rest) with
    | mk o last =>
      obtain ⟨hheads, -, hclear⟩ := horelse.part (by lia) ho
      have hstart : (opens .body s.span.firstLine ++ passes before fresh kind text).Heads
          (Loop.Guard loop) fresh [] :=
        .of_none (by simp) (by simp) (fun a k h => by simp at h) fun a b h => by simp [hkind] at h
      simp only [elsePart, ho]
      constructor
      case toHeads =>
        have hpart := hstart.append (by simp [next_append]) hheads (by simp)
        exact hpart.pass last after .unconditional none (by simp [TransferKind.turnsBack])
      case own =>
        intro a ha
        simpa using hclear a (by lia) (by lia)

theorem headed_ifElse (h : current < fresh) (span : Span) (test : Expr) {body orelse : List Stmt}
    (hbody : AllHeaded loop body) (horelse : AllHeaded loop orelse) :
    Headed loop fresh (layOut loop current fresh (.at span (.ifElse test body orelse)))
      (allLoops body ++ allLoops orelse) := by
  cases hb : layOutAll loop fresh (fresh + 2) body with
  | mk b bodyEnd =>
    obtain ⟨hheads, -, hclear⟩ := hbody.part (by lia) hb
    have hbn := b.le_next (fresh + 2)
    rw [layOut_ifElse span test orelse hb]
    have ho := elsePart_heads current (fresh + 1) (b.next (fresh + 2)) .whenFalse
      (some (negated (conditionText test))) rfl horelse
    generalize elsePart loop current (fresh + 1) (b.next (fresh + 2)) .whenFalse
      (some (negated (conditionText test))) orelse = o at ho ⊢
    generalize hstart : decides ++ places current (testHeader test) ++ turns current .branch
      ++ opens .body (startLine body span.firstLine)
      ++ passes current fresh .whenTrue (some (conditionText test)) ++ opens .body span.lastLine = start
    have hnext : start.next fresh = fresh + 2 := by simp [← hstart, next_append, Int.add_assoc]
    have hfirst : start.Heads (Loop.Guard loop) fresh [] := by
      refine .of_none (fun a ha => ?_) (by simp [← hstart]) (fun a kind hk => ?_) fun a c hac => ?_
      · simp [hnext] at ha
        simp [← hstart, statementsOf_places]
        lia
      · simp [← hstart, statementsOf_places] at hk ⊢
        simp [hk]
      · simp [← hstart, TransferKind.turnsBack] at hac
    have hpart := (hfirst.append hnext hheads (by simp [← hstart])).pass bodyEnd (fresh + 1)
      .unconditional none (by simp [TransferKind.turnsBack])
    refine ⟨hpart.append_own (by simp [next_append, hnext]) ho, fun hmem => ?_⟩
    simp [next_append, ← hstart] at hmem
    rcases hmem with hmem | hmem
    · have := mem_headers hmem
      lia
    · have := mem_headers hmem
      lia

theorem headed_loop {s header : Stmt} (hs : s.loopHeader? = some header) {links : LoopLinks}
    (henter : links.enter.turnsBack = false) (hleave : links.leave.turnsBack = false) (span : Span)
    (bodyLine : Int) {body orelse : List Stmt} (hbody : ∀ inner, AllHeaded (some inner) body)
    (horelse : AllHeaded loop orelse) :
    Headed loop fresh
      (layOutLoop header links span bodyLine (orelse.head?.map (·.span.firstLine))
        (fun inner c f => layOutAll (some inner) c f body) (fun _ c f => layOutAll loop c f orelse)
        current fresh)
      (s :: (allLoops body ++ allLoops orelse)) := by
  cases hb : layOutAll (some ⟨fresh, fresh + 1⟩) (fresh + 2) (fresh + 3) body with
  | mk b bodyEnd =>
    obtain ⟨hheads, -, hclear⟩ := (hbody ⟨fresh, fresh + 1⟩).part (by lia) hb
    have hbn := b.le_next (fresh + 3)
    rw [layOutLoop_eq header links span bodyLine orelse hb]
    have ho := elsePart_heads fresh (fresh + 1) (b.next (fresh + 3)) links.leave links.leaveText hleave
      horelse
    generalize elsePart loop fresh (fresh + 1) (b.next (fresh + 3)) links.leave links.leaveText
      orelse = o at ho ⊢
    generalize hstart : decides ++ opens .loopHeader span.firstLine ++ passes current fresh .unconditional
      ++ places fresh header ++ opens .body span.lastLine ++ opens .loopBody bodyLine
      ++ passes fresh (fresh + 2) links.enter links.enterText = start
    have hnext : start.next fresh = fresh + 3 := by simp [← hstart, next_append, Int.add_assoc]
    have hown : start.headers fresh = [fresh] := by simp [← hstart]
    -- inside the loop control also turns back to its own header
    let outer (a : BlockId) : Prop := Loop.Guard loop a ∨ a = fresh
    have hfirst : start.Heads outer fresh [s] := by
      constructor
      case below =>
        intro a ha
        simp [hnext] at ha
        simp [← hstart, statementsOf_places]
        lia
      case hold => simp [hs, ← hstart, statementsOf_places]
      case kept => simp [← hstart]
      case turned => simp [← hstart]
      case back =>
        intro a c hac
        have hturn : TransferKind.unconditional.turnsBack = false := rfl
        simp [← hstart, hturn, henter] at hac
    have hinner : b.Heads outer (fresh + 3) (allLoops body) := by
      refine hheads.mono ?_
      rintro a ⟨l, hl, rfl⟩
      obtain rfl := Option.some.inj hl
      exact .inr (.inr rfl)
    have hothers : o.OwnHeads outer (b.next (fresh + 3)) (allLoops orelse) :=
      { ho with toHeads := ho.toHeads.mono fun a ha => .inr (.inl ha) }
    have hpart := (hfirst.append hnext hinner (by
      rw [hown]
      simpa using hclear fresh (by lia) (by lia))).pass bodyEnd fresh .backEdge none
        fun _ => .inr rfl
    have hwhole := hpart.append_own (by simp [next_append, hnext]) hothers
    refine ⟨hwhole.mono fun a ha => ha.symm.imp_left ?_, fun hmem => ?_⟩
    · rintro rfl
      simp [hown]
    · simp only [headers_append, headers_passes, next_append, next_passes, hnext, hown, List.append_nil,
        List.mem_append, List.mem_singleton, or_assoc] at hmem
      rcases hmem with hmem | hmem | hmem
      · lia
      · have := mem_headers hmem
        lia
      · have := mem_headers hmem
        lia

theorem headed_with (h : current < fresh) (span : Span) (isAsync : Bool) (items : List WithItem)
    {body : List Stmt} (hbody : AllHeaded loop body) :
    Headed loop fresh (layOut loop current fresh (.at span (.withItems isAsync items body)))
      (allLoops body) := by
  cases hb : layOutAll loop current fresh body with
  | mk b bodyEnd =>
    obtain ⟨hheads, ⟨hlast, -⟩, -⟩ := hbody.part h hb
    rw [layOut_withItems span isAsync items hb]
    generalize items.map (fun i => bindingHeader i.target i.context) = headers
    have hfirst : (placing {} current headers).Heads (Loop.Guard loop) fresh [] := by
      refine .of_none (fun a ha => ?_) (by simp) (fun a kind hk => by simp at hk) fun a c hac => by
        simp at hac
      rw [next_placing, next_empty] at ha
      rw [statementsOf_placing]
      simp
      lia
    exact ⟨hfirst.append (by simp) hheads (by simp), by simpa using hlast⟩

/-- Handlers have header blocks for their loops, wherever they are laid out. -/
def HandlersHeaded (loop : Option Loop) (handlers : List Handler) : Prop :=
  ∀ before bodyEnd after fresh, (layOutHandlers loop before bodyEnd after fresh handlers).OwnHeads
    (Loop.Guard loop) fresh (handlersLoops handlers)

theorem handlersHeaded_nil : HandlersHeaded loop [] := fun _ _ _ _ =>
  ⟨heads_empty, fun _ _ => rfl⟩

theorem handlersHeaded_cons (span : Span) (type : Option Expr) (name : Option String)
    {body : List Stmt} {rest : List Handler} (hbody : AllHeaded loop body)
    (hrest : HandlersHeaded loop rest) : HandlersHeaded loop (.at span type name body :: rest) := by
  intro before bodyEnd after fresh
  cases hb : layOutAll loop fresh (fresh + 1) body with
  | mk b last =>
    obtain ⟨hheads, -, hclear⟩ := hbody.part (by lia) hb
    rw [layOutHandlers_cons before bodyEnd after span type name rest hb]
    have hr := hrest before bodyEnd after (b.next (fresh + 1))
    generalize layOutHandlers loop before bodyEnd after (b.next (fresh + 1)) rest = r at hr ⊢
    generalize (type.map (bindingHeader (name.map (handlerTarget span)))).toList = headers
    have hfirst : (decides ++ opens .handler span.firstLine
        ++ passes before fresh .error (type.map conditionText)
        ++ passes bodyEnd fresh .error (type.map conditionText) ++ placing {} fresh headers).Heads
          (Loop.Guard loop) fresh [] := by
      refine .of_none (fun a ha => ?_) (by simp) (fun a kind hk => by simp at hk) fun a c hac => by
        simp [TransferKind.turnsBack] at hac
      simp [next_append] at ha
      simp [statementsOf_placing]
      lia
    have hpart := (hfirst.append (by simp [next_append]) hheads (by simp)).pass last after
      .unconditional none (by simp [TransferKind.turnsBack])
    refine ⟨hpart.append_own (by simp [next_append]) hr, fun a ha => ?_⟩
    have hrown := hr.own a (by have := b.le_next (fresh + 1); lia)
    simp [hrown, hclear a (by lia) (by lia), statementsOf_placing]
    lia

/-- Cases have header blocks for their loops, wherever they are laid out. -/
def CasesHeaded (loop : Option Loop) (cases : List Case) : Prop :=
  ∀ branch after fresh, (layOutCases loop branch after fresh cases).OwnHeads
    (Loop.Guard loop) fresh (casesLoops cases)

theorem casesHeaded_nil : CasesHeaded loop [] := fun _ _ _ =>
  ⟨heads_empty, fun _ _ => rfl⟩

theorem casesHeaded_cons (p : Code.Pattern) (guard : Option Expr) {body : List Stmt} {rest : List Case}
    (hbody : AllHeaded loop body) (hrest : CasesHeaded loop rest) :
    CasesHeaded loop (.of p guard body :: rest) := by
  intro branch after fresh
  cases hb : layOutAll loop fresh (fresh + 1) body with
  | mk b last =>
    obtain ⟨hheads, -, hclear⟩ := hbody.part (by lia) hb
    have hr := hrest branch after (b.next (fresh + 1))
    simp only [layOutCases, hb, next_append, next_decides, next_opens, next_passes]
    generalize layOutCases loop branch after (b.next (fresh + 1)) rest = r at hr ⊢
    have hfirst : (decides ++ opens .body p.span.firstLine
        ++ passes branch fresh .case (some (patternText p))).Heads (Loop.Guard loop) fresh [] :=
      .of_none (by simp) (by simp) (fun a kind hk => by simp at hk) fun a c hac => by
        simp [TransferKind.turnsBack] at hac
    have hpart := (hfirst.append (by simp [next_append]) hheads (by simp)).pass last after
      .unconditional none (by simp [TransferKind.turnsBack])
    refine ⟨hpart.append_own (by simp [next_append]) hr, fun a ha => ?_⟩
    have hrown := hr.own a (by have := b.le_next (fresh + 1); lia)
    simp [hrown, hclear a (by lia) (by lia)]

theorem headed_match (h : current < fresh) (span : Span) (subject : Expr) {cases : List Case}
    (hcases : CasesHeaded loop cases) :
    Headed loop fresh (layOut loop current fresh (.at span (.matchCases subject cases)))
      (casesLoops cases) := by
  have hc := hcases current fresh (fresh + 1)
  simp only [layOut]
  generalize layOutCases loop current fresh (fresh + 1) cases = c at hc ⊢
  have hfirst : (places current (testHeader subject) ++ turns current .branch
      ++ opens .body span.lastLine).Heads (Loop.Guard loop) fresh [] := by
    refine .of_none (fun a ha => ?_) (by simp) (fun a kind hk => ?_) fun a b hab => by simp at hab
    · simp [next_append] at ha
      simp [statementsOf_places]
      lia
    · simp [statementsOf_places] at hk ⊢
      simp [hk]
  have hpart := hfirst.append_own (by simp [next_append]) hc
  refine ⟨hpart.pass current fresh .whenFalse none (by simp [TransferKind.turnsBack]),
    fun hmem => ?_⟩
  simp [next_append] at hmem
  have := mem_headers hmem
  lia

theorem headed_try (span : Span) (isGroup : Bool) {body : List Stmt} {handlers : List Handler}
    {orelse finalbody : List Stmt} (hbody : AllHeaded loop body)
    (hhandlers : HandlersHeaded loop handlers) (horelse : AllHeaded loop orelse)
    (hfinal : AllHeaded loop finalbody) :
    Headed loop fresh
      (layOut loop current fresh (.at span (.tryBlock isGroup body handlers orelse finalbody)))
      (allLoops body ++ handlersLoops handlers ++ allLoops orelse ++ allLoops finalbody) := by
  cases hb : layOutAll loop fresh (fresh + 1) body with
  | mk b bodyEnd =>
    obtain ⟨hheads, -, -⟩ := hbody.part (by lia) hb
    have hbn := b.le_next (fresh + 1)
    generalize hafter : b.next (fresh + 1) = after at *
    rw [layOut_tryBlock span isGroup handlers orelse finalbody hb hafter]
    dsimp only
    have hh := hhandlers current bodyEnd after (after + 1)
    generalize layOutHandlers loop current bodyEnd after (after + 1) handlers = hs at hh ⊢
    have hhn := hs.le_next (after + 1)
    have ho := elsePart_heads bodyEnd after (hs.next (after + 1)) .unconditional none rfl horelse
    generalize elsePart loop bodyEnd after (hs.next (after + 1)) .unconditional none orelse = o at ho ⊢
    have hon := o.le_next (hs.next (after + 1))
    cases hf : layOutAll loop after (o.next (hs.next (after + 1))) finalbody with
    | mk f finalEnd =>
      obtain ⟨hfheads, ⟨hflast, hfend⟩, hfclear⟩ := hfinal.part (by lia) hf
      have hfirst : (opens .body (startLine body span.firstLine)
          ++ passes current fresh .unconditional).Heads (Loop.Guard loop) fresh [] :=
        .of_none (by simp) (by simp) (fun a kind hk => by simp at hk) fun a c hac => by
          simp [TransferKind.turnsBack] at hac
      have hpart := ((hfirst.append (by simp [next_append]) hheads (by simp)).open .body span.lastLine
        (by simp)).append_own (by simp [next_append, hafter]) hh
      have hjoined := hpart.append_own (by simp [next_append, hafter]) ho
      generalize hfront : opens .body (startLine body span.firstLine) ++ passes current fresh .unconditional
        ++ b ++ opens .body span.lastLine ++ hs ++ o = front at hjoined ⊢
      have hnext : front.next fresh = o.next (hs.next (after + 1)) := by
        simp [← hfront, next_append, hafter]
      -- the block behind the statement opens between its parts, and is none of their headers
      have hfree : after ∉ front.headers fresh := by
        intro hmem
        simp [← hfront, next_append, hafter] at hmem
        rcases hmem with hmem | hmem | hmem
        all_goals
          have := mem_headers hmem
          lia
      refine ⟨hjoined.append hnext hfheads fun a ha => ?_, not_mem_headers_append hnext hfree hflast hfend⟩
      exact hfclear a (fun he => hfree (he ▸ ha)) (hnext ▸ (mem_headers ha).2)

/-! ## Bodies -/

theorem allHeaded_nil : AllHeaded loop [] := fun _ _ _ => headed_nothing

theorem allHeaded_cons {s : Stmt} {rest : List Stmt}
    (hs : ∀ current fresh, current < fresh →
      Headed loop fresh (layOut loop current fresh s) s.loops)
    (hrest : AllHeaded loop rest) : AllHeaded loop (s :: rest) := by
  intro current fresh h
  cases hf : layOut loop current fresh s with
  | mk f mid =>
    obtain ⟨hheads, hlast⟩ := hf ▸ hs current fresh h
    have hmid := (hf ▸ layOut_lies loop s current fresh h).last
    have hfn := f.le_next fresh
    dsimp only at hmid hlast hheads
    cases hg : layOutAll loop mid (f.next fresh) rest with
    | mk g last =>
      obtain ⟨hgheads, ⟨hglast, hgend⟩, hgclear⟩ := hrest.part (by lia) hg
      simp only [layOutAll, hf, hg]
      refine ⟨hheads.append rfl hgheads fun a ha => ?_, not_mem_headers_append rfl hlast hglast hgend⟩
      exact hgclear a (fun he => hlast (he ▸ ha)) (mem_headers ha).2

mutual

/-- **A statement has header blocks for its loops** where it is laid out, whatever its form. -/
theorem layOut_headed (loop : Option Loop) : ∀ (s : Stmt) (current fresh : BlockId),
    current < fresh → Headed loop fresh (layOut loop current fresh s) s.loops
  | .at span form, current, fresh, h => by
    cases form with
    | ifElse test body orelse =>
      exact headed_ifElse h span test (layOutAll_headed loop body) (layOutAll_headed loop orelse)
    | whileLoop test body orelse =>
      simp only [layOut]
      exact headed_loop rfl rfl rfl span _ (fun inner => layOutAll_headed (some inner) body)
        (layOutAll_headed loop orelse)
    | forLoop isAsync target iter body orelse =>
      simp only [layOut]
      exact headed_loop rfl rfl rfl span _ (fun inner => layOutAll_headed (some inner) body)
        (layOutAll_headed loop orelse)
    | withItems isAsync items body => exact headed_with h span isAsync items (layOutAll_headed loop body)
    | tryBlock isGroup body handlers orelse finalbody =>
      exact headed_try span isGroup (layOutAll_headed loop body) (layOutHandlers_headed loop handlers)
        (layOutAll_headed loop orelse) (layOutAll_headed loop finalbody)
    | matchCases subject cases => exact headed_match h span subject (layOutCases_headed loop cases)
    | ret value => exact headed_ret h span value
    | breakLoop =>
      cases loop with
      | none => exact headed_nothing
      | some l => exact headed_jump (fun h => absurd h (by decide)) span.firstLine
    | continueLoop =>
      cases loop with
      | none => exact headed_nothing
      | some l => exact headed_jump (fun _ => ⟨l, rfl, rfl⟩) span.firstLine
    | _ => exact headed_places h _

theorem layOutAll_headed (loop : Option Loop) : ∀ body : List Stmt, AllHeaded loop body
  | [] => allHeaded_nil
  | s :: rest => allHeaded_cons (layOut_headed loop s) (layOutAll_headed loop rest)

theorem layOutHandlers_headed (loop : Option Loop) : ∀ handlers : List Handler,
    HandlersHeaded loop handlers
  | [] => handlersHeaded_nil
  | .at span type name body :: rest =>
    handlersHeaded_cons span type name (layOutAll_headed loop body) (layOutHandlers_headed loop rest)

theorem layOutCases_headed (loop : Option Loop) : ∀ cases : List Case, CasesHeaded loop cases
  | [] => casesHeaded_nil
  | .of p guard body :: rest =>
    casesHeaded_cons p guard (layOutAll_headed loop body) (layOutCases_headed loop rest)

end

/-! ## Whole bodies -/

namespace Fragment.Heads

variable {f : Fragment} {outer : BlockId → Prop} {loops : List Stmt} {last : BlockId} {i : Nat} {o : Opened}

/-- The header blocks of a whole layout are those that open for headers. -/
theorem blockOf_kind (h : f.Heads outer 0 loops) (hi : f.opened[i]? = some o) :
    (f.blockOf last i o).kind = .loopHeader ↔ o.kind = .loopHeader := by
  have hkind : f.kindOf i o.kind = .loopHeader ↔ o.kind = .loopHeader := by
    cases hlast : (f.turned.filter fun t => t.1 = (i : BlockId)).getLast? with
    | none => simp [kindOf, hlast]
    | some t =>
      obtain ⟨hmem, hblock⟩ := List.mem_filter.1 (List.mem_of_getLast? hlast)
      have hturned : f.Turned i t.2 := by
        have : t.1 = (i : BlockId) := by simpa using hblock
        rw [← this]
        exact hmem
      -- the block did turn, so it is none that opened for a header, nor does it become one
      have hopened : o.kind ≠ .loopHeader := by
        intro ho
        refine h.kept i (List.mem_map.2 ⟨(o, i), List.mem_filter.2 ⟨?_, by simpa using ho⟩, by simp⟩) _ hturned
        exact List.mem_zipIdx_iff_getElem?.2 hi
      simp [kindOf, hlast, hopened, (h.turned i t.2 hturned).2]
  rw [← hkind]
  simp only [blockOf]
  split
  case isTrue hexit =>
    simp at hexit
    simp [hexit.2]
  case isFalse => rfl

/-- The header blocks of a graph are those of its layout, in order. -/
theorem filter_blocks (h : f.Heads outer 0 loops) (name : String) (last : BlockId) :
    ((f.toGraph name last).blocks.filter fun b => b.kind = .loopHeader).map (fun b => (b.id, b.statements)) =
      (f.headers 0).map fun a => (a, (f.statementsOf a).map some) := by
  have hsame : (f.opened.zipIdx.filter fun oi => (f.blockOf last oi.2 oi.1).kind = .loopHeader) =
      f.opened.zipIdx.filter fun oi => oi.1.kind = .loopHeader := by
    refine List.filter_congr fun oi hoi => ?_
    simp only [h.blockOf_kind (List.mem_zipIdx_iff_getElem?.1 hoi)]
  have hblocks : (f.toGraph name last).blocks = f.opened.zipIdx.map fun oi => f.blockOf last oi.2 oi.1 := rfl
  rw [hblocks, List.filter_map, Function.comp_def, hsame]
  simp only [headers, List.map_map, Function.comp_def, blockOf, Int.zero_add]

end Fragment.Heads

/-- What holds of the loops in the graph of a body. -/
structure Graph.LoopHeaded (g : Graph) (body : List Stmt) : Prop where
  /-- Control that does not turn back to the header of a loop comes back to no block. -/
  acyclic : ∀ a, ¬ Relation.TransGen g.Advances a a
  /-- Control turns back to header blocks only. -/
  back : ∀ t ∈ g.transfers, t.kind.turnsBack = true → ∃ b ∈ g.blocks, b.id = t.target ∧ b.kind = .loopHeader
  /-- There is one header block for each loop of the body, in order, and it holds the header of
  that loop and nothing else. -/
  headers : List.Forall₂ (fun b s => ∃ header, s.loopHeader? = some header ∧ b.statements = [some header])
    (g.blocks.filter fun b => b.kind = .loopHeader) (allLoops body)

theorem Graph.ofBody_loopHeaded (name : String) (line : Int) (bindings body : List Stmt) :
    (Graph.ofBody name line bindings body).LoopHeaded body := by
  cases hf : layOutAll none 0 1 body with
  | mk f last =>
    have hentry : ((opens .entry line).placing 0 bindings).Heads (Loop.Guard none) 0 [] := by
      refine .of_none (fun a ha => ?_) (by simp) (fun a kind hk => by simp at hk) fun a b hab => by
        simp at hab
      rw [next_placing, next_opens] at ha
      rw [statementsOf_placing]
      simp
      lia
    obtain ⟨hheads, -, -⟩ := (layOutAll_headed none body).part (by decide) hf
    have hwhole := hentry.append (by simp) hheads (by simp)
    have hblocks := hwhole.filter_blocks name last
    constructor
    case acyclic => exact Graph.ofBody_acyclic name line bindings body
    all_goals
      rw [Graph.ofBody_eq name line bindings hf]
    case back =>
      intro t ht hback
      rcases hwhole.back t.source t.target ⟨t, ht, hback, rfl, rfl⟩ with hmem | ⟨l, hl, -⟩
      · have hpair := List.mem_map_of_mem (f := fun a =>
          (a, (((opens .entry line).placing 0 bindings ++ f).statementsOf a).map some)) hmem
        rw [← hblocks] at hpair
        obtain ⟨b, hb, heq⟩ := List.mem_map.1 hpair
        obtain ⟨hb, hkind⟩ := List.mem_filter.1 hb
        exact ⟨b, hb, congrArg Prod.fst heq, by simpa using hkind⟩
      · cases hl
    case headers =>
      have hstatements := congrArg (List.map Prod.snd) hblocks
      simp only [List.map_map, Function.comp_def] at hstatements
      have hpairs := List.forall₂_eq_eq_eq ▸ hstatements.trans hwhole.hold
      rw [List.forall₂_map_left_iff, List.forall₂_map_right_iff] at hpairs
      refine ((List.forall₂_and_left (p := fun b : Block => ∃ xs : List Stmt, b.statements = xs.map some)
        _ _).2 ⟨fun b hb => ?_, hpairs⟩).imp ?_
      · obtain ⟨i, o, -, rfl⟩ := mem_blocks.1 (List.mem_filter.1 hb).1
        exact ⟨_, rfl⟩
      · rintro b s ⟨⟨xs, hxs⟩, hb⟩
        obtain ⟨header, hheader⟩ : ∃ header, xs = [header] := by
          rw [hxs, List.map_eq_singleton_iff] at hb
          exact hb.imp fun _ h => h.1
        subst hheader
        refine ⟨header, ?_, hxs⟩
        simpa [hxs] using hb.symm

/-- **Every cycle goes through the header of a loop**, in module-level code and in functions:
control that does not turn back to such a header never comes back to a block, and
it turns back only to the header blocks, of which there is one for each loop. -/
theorem Graph.cycles_through_headers :
    (∀ m : Module, (Graph.ofModule m).LoopHeaded m.body) ∧
      ∀ (span : Span) (isAsync : Bool) (name : String) (ps : Parameters) (body : List Stmt)
        (decorators : List Expr) (returns : Option Expr),
        ∃ g, Graph.ofFunction? (.at span (.function isAsync name ps body decorators returns)) = some g ∧
          g.LoopHeaded body :=
  ⟨fun m => Graph.ofBody_loopHeaded _ _ [] m.body,
    fun _ _ name _ body _ _ => ⟨_, rfl, Graph.ofBody_loopHeaded name _ _ body⟩⟩

end Reaching
