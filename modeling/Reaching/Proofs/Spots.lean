/-
Where the statements of a body are laid out.

A statement is laid out at a spot: in the block that is current there, with the blocks that
open numbered from the first number that is free. The spots of all statements of a body, at
any depth, are known from where the body itself is laid out (`allSpots`), and what is laid
out at each of them stands as it is in the layout of the whole (`allSpots_standIn`).
-/
import Reaching.Proofs.Region

namespace Reaching

open Code Fragment

/-! ## Parts of a fragment -/

namespace Fragment

variable {p f g : Fragment} {m n : BlockId}

/-- A fragment stands in another one, with its blocks numbered from `m` where those of the
other are numbered from `n`. -/
def StandsIn (p : Fragment) (m : BlockId) (f : Fragment) (n : BlockId) : Prop :=
  ∃ before after, f = before ++ p ++ after ∧ before.next n = m

/-- A block opens with a number. -/
def OpensAt (f : Fragment) (n i : BlockId) (o : Opened) : Prop :=
  ∃ k : Nat, f.opened[k]? = some o ∧ i = n + k

theorem append_empty (f : Fragment) : f ++ {} = f := by
  show append f {} = f
  simp [append]

theorem empty_append (f : Fragment) : ({} : Fragment) ++ f = f := by
  show append {} f = f
  simp [append]

theorem StandsIn.refl (f : Fragment) (n : BlockId) : f.StandsIn n f n :=
  ⟨{}, {}, by rw [append_empty, empty_append], next_empty n⟩

theorem StandsIn.left (h : p.StandsIn m f n) (g : Fragment) : p.StandsIn m (f ++ g) n := by
  obtain ⟨before, after, rfl, hm⟩ := h
  exact ⟨before, after ++ g, by simp only [append_assoc], hm⟩

theorem StandsIn.right (h : p.StandsIn m g (f.next n)) : p.StandsIn m (f ++ g) n := by
  obtain ⟨before, after, rfl, hm⟩ := h
  exact ⟨f ++ before, after, by simp only [append_assoc], by rw [next_append, hm]⟩

/-- A fragment that stands at the end of another one. -/
theorem StandsIn.last {k : BlockId} (h : p.StandsIn m g k) (hk : f.next n = k) :
    p.StandsIn m (f ++ g) n :=
  .right (hk ▸ h)

theorem StandsIn.trans {q : Fragment} {k : BlockId} (h : p.StandsIn m f n) (hf : f.StandsIn n q k) :
    p.StandsIn m q k := by
  obtain ⟨before, after, rfl, rfl⟩ := hf
  exact (h.last rfl).left after

/-! What a part says, the whole says. -/

theorem StandsIn.leads (h : p.StandsIn m f n) {a b : BlockId} (hab : p.Leads a b) : f.Leads a b := by
  obtain ⟨before, after, rfl, -⟩ := h
  simp [hab]

theorem StandsIn.mem_returns (h : p.StandsIn m f n) {a : BlockId} (ha : a ∈ p.returns) :
    a ∈ f.returns := by
  obtain ⟨before, after, rfl, -⟩ := h
  simp [ha]

theorem StandsIn.mem_statementsOf (h : p.StandsIn m f n) {a : BlockId} {s : Stmt}
    (hs : s ∈ p.statementsOf a) : s ∈ f.statementsOf a := by
  obtain ⟨before, after, rfl, -⟩ := h
  simp [hs]

theorem opensAt_append {i : BlockId} {o : Opened} :
    (f ++ g).OpensAt n i o ↔ f.OpensAt n i o ∨ g.OpensAt (f.next n) i o := by
  simp only [OpensAt, opened_append, next]
  constructor
  · rintro ⟨k, hk, rfl⟩
    rcases Nat.lt_or_ge k f.opened.length with hlt | hge
    · exact .inl ⟨k, by rwa [List.getElem?_append_left hlt] at hk, rfl⟩
    · refine .inr ⟨k - f.opened.length, by rwa [List.getElem?_append_right hge] at hk, ?_⟩
      lia
  · rintro (⟨k, hk, rfl⟩ | ⟨k, hk, rfl⟩)
    · refine ⟨k, ?_, rfl⟩
      rwa [List.getElem?_append_left (List.getElem?_eq_some_iff.1 hk).1]
    · refine ⟨f.opened.length + k, ?_, by lia⟩
      rwa [List.getElem?_append_right (Nat.le_add_right ..), Nat.add_sub_cancel_left]

theorem StandsIn.opensAt (h : p.StandsIn m f n) {i : BlockId} {o : Opened} (hi : p.OpensAt m i o) :
    f.OpensAt n i o := by
  obtain ⟨before, after, rfl, rfl⟩ := h
  exact opensAt_append.2 (.inl (opensAt_append.2 (.inr hi)))

end Fragment

/-! ## Spots -/

/-- Where something is laid out: the innermost loop, the current block, and the first number
that is free. -/
structure Spot where
  loop : Option Loop
  current : BlockId
  fresh : BlockId

namespace Spot

/-- The spot of a whole body. -/
def start : Spot := ⟨none, 0, 1⟩

/-- The top of a block that opens. -/
def top (loop : Option Loop) (block : BlockId) : Spot := ⟨loop, block, block + 1⟩

/-- A statement laid out at a spot. -/
def laid (x : Spot) (s : Stmt) : Laid := layOut x.loop x.current x.fresh s

/-- Statements laid out one after the other from a spot on. -/
def laidAll (x : Spot) (body : List Stmt) : Laid := layOutAll x.loop x.current x.fresh body

/-- The spot behind a layout. -/
def behind (x : Spot) (laid : Laid) : Spot := ⟨x.loop, laid.2, laid.1.next x.fresh⟩

/-- The spot of the body of an `if` statement. -/
def thenPart (x : Spot) : Spot := ⟨x.loop, x.fresh, x.fresh + 2⟩

/-- The spot of the body of a loop. -/
def turn (x : Spot) : Spot := ⟨some ⟨x.fresh, x.fresh + 1⟩, x.fresh + 2, x.fresh + 3⟩

/-- The spot of the body of a `try` statement. -/
def attempt (x : Spot) : Spot := top x.loop x.fresh

/-- The block behind a `try` statement. It opens when the body of the statement is laid out,
and the handlers follow. -/
def afterTry (x : Spot) (body : List Stmt) : BlockId := (x.attempt.behind (x.attempt.laidAll body)).fresh

end Spot

mutual

/-- The statements in a statement that is laid out at a spot, each with the spot where it is
laid out. -/
def Code.Stmt.inner (x : Spot) : Stmt → List (Spot × Stmt)
  | .at _ (.ifElse _ body orelse) =>
    allSpots x.thenPart body ++
      allSpots (.top x.loop (x.thenPart.behind (x.thenPart.laidAll body)).fresh) orelse
  | .at _ (.whileLoop _ body orelse) =>
    allSpots x.turn body ++ allSpots (.top x.loop (x.turn.behind (x.turn.laidAll body)).fresh) orelse
  | .at _ (.forLoop _ _ _ body orelse) =>
    allSpots x.turn body ++ allSpots (.top x.loop (x.turn.behind (x.turn.laidAll body)).fresh) orelse
  | .at _ (.withItems _ _ body) => allSpots x body
  | .at _ (.tryBlock _ body handlers orelse finalbody) =>
    let bodyEnd := (x.attempt.laidAll body).2
    let after := x.afterTry body
    let handled := (layOutHandlers x.loop x.current bodyEnd after (after + 1) handlers).next (after + 1)
    let joined := (elsePart x.loop bodyEnd after handled .unconditional none orelse).next handled
    allSpots x.attempt body ++ handlersSpots x.loop (after + 1) handlers ++
      allSpots (.top x.loop handled) orelse ++ allSpots ⟨x.loop, after, joined⟩ finalbody
  | .at _ (.matchCases _ cases) => casesSpots x.loop (x.fresh + 1) cases
  | .at _ _ => []

/-- The statements of a body at any depth, each with the spot where it is laid out. -/
def allSpots (x : Spot) : List Stmt → List (Spot × Stmt)
  | [] => []
  | s :: rest => (x, s) :: (s.inner x ++ allSpots (x.behind (x.laid s)) rest)

/-- The statements of handlers, the first of which opens a block. -/
def handlersSpots (loop : Option Loop) (block : BlockId) : List Handler → List (Spot × Stmt)
  | [] => []
  | .at _ _ _ body :: rest =>
    let top := Spot.top loop block
    allSpots top body ++ handlersSpots loop (top.behind (top.laidAll body)).fresh rest

/-- The statements of cases, the first of which opens a block. -/
def casesSpots (loop : Option Loop) (block : BlockId) : List Case → List (Spot × Stmt)
  | [] => []
  | .of _ _ body :: rest =>
    let top := Spot.top loop block
    allSpots top body ++ casesSpots loop (top.behind (top.laidAll body)).fresh rest

end

/-! ## Layouts of parts stand in that of the whole -/

/-- What is laid out at each of some spots stands in a fragment. -/
def AllStandIn (spots : List (Spot × Stmt)) (f : Fragment) (n : BlockId) : Prop :=
  ∀ y ∈ spots, (y.1.laid y.2).1.StandsIn y.1.fresh f n

variable {loop : Option Loop} {m n : BlockId} {f g : Fragment} {spots spots' : List (Spot × Stmt)}

theorem AllStandIn.left (h : AllStandIn spots f n) (g : Fragment) : AllStandIn spots (f ++ g) n :=
  fun y hy => (h y hy).left g

theorem AllStandIn.last (h : AllStandIn spots g m) (hm : f.next n = m) : AllStandIn spots (f ++ g) n :=
  fun y hy => (h y hy).last hm

theorem AllStandIn.append (h : AllStandIn spots f n) (h' : AllStandIn spots' f n) :
    AllStandIn (spots ++ spots') f n :=
  fun y hy => (List.mem_append.1 hy).elim (h y) (h' y)

theorem allStandIn_nil : AllStandIn [] f n := fun _ hy => nomatch hy

/-- The body of an `else` part stands in the part. -/
theorem elsePart_standIn (before after fresh : BlockId) (kind : TransferKind) (text : Option String)
    {orelse : List Stmt}
    (h : AllStandIn (allSpots (.top loop fresh) orelse) ((Spot.top loop fresh).laidAll orelse).1 (fresh + 1)) :
    AllStandIn (allSpots (.top loop fresh) orelse) (elsePart loop before after fresh kind text orelse)
      fresh := by
  cases orelse with
  | nil => exact allStandIn_nil
  | cons s rest => exact (h.last (by simp [next_append])).left _

/-- The parts of a loop stand in its layout. -/
theorem loop_standIn (x : Spot) (header : Stmt) (links : LoopLinks) (span : Span) (bodyLine : Int)
    {body orelse : List Stmt} (hbody : AllStandIn (allSpots x.turn body) (x.turn.laidAll body).1 x.turn.fresh)
    (horelse : ∀ y : Spot, AllStandIn (allSpots y orelse) (y.laidAll orelse).1 y.fresh) :
    AllStandIn
      (allSpots x.turn body ++ allSpots (.top x.loop (x.turn.behind (x.turn.laidAll body)).fresh) orelse)
      (layOutLoop header links span bodyLine (orelse.head?.map (·.span.firstLine))
        (fun inner c f => layOutAll (some inner) c f body) (fun _ c f => layOutAll x.loop c f orelse)
        x.current x.fresh).1 x.fresh := by
  rw [layOutLoop_eq header links span bodyLine orelse rfl]
  refine .append (((hbody.last ?_).left _).left _) ((elsePart_standIn _ _ _ _ _ (horelse _)).last ?_)
  · simp [next_append, Spot.turn, Int.add_assoc]
  · simp [next_append, Spot.turn, Spot.behind, Spot.laidAll, Int.add_assoc]

mutual

/-- **What is laid out inside of a statement stands in its layout.** -/
theorem inner_standIn : ∀ (s : Stmt) (x : Spot), AllStandIn (s.inner x) (x.laid s).1 x.fresh
  | .at span form, x => by
    cases form with
    | ifElse test body orelse =>
      have hbody := allSpots_standIn body x.thenPart
      have horelse := allSpots_standIn orelse (.top x.loop (x.thenPart.behind (x.thenPart.laidAll body)).fresh)
      rw [Spot.laid, layOut_ifElse span test orelse rfl]
      refine .append (((hbody.last ?_).left _).left _) ((elsePart_standIn _ _ _ _ _ horelse).last ?_)
      · simp [next_append, Spot.thenPart, Int.add_assoc]
      · simp [next_append, Spot.thenPart, Spot.behind, Spot.laidAll, Int.add_assoc]
    | whileLoop test body orelse =>
      simp only [Spot.laid, layOut]
      exact loop_standIn x _ _ span _ (allSpots_standIn body x.turn) (allSpots_standIn orelse)
    | forLoop isAsync target iter body orelse =>
      simp only [Spot.laid, layOut]
      exact loop_standIn x _ _ span _ (allSpots_standIn body x.turn) (allSpots_standIn orelse)
    | withItems isAsync items body =>
      rw [Spot.laid, layOut_withItems span isAsync items rfl]
      exact (allSpots_standIn body x).last (by simp)
    | tryBlock isGroup body handlers orelse finalbody =>
      rw [Spot.laid, layOut_tryBlock span isGroup handlers orelse finalbody rfl rfl]
      refine .append (.append (.append ?_ ?_) ?_) ?_
      · refine (((((allSpots_standIn body x.attempt).last ?_).left _).left _).left _).left _
        simp [next_append, Spot.attempt, Spot.top]
      · refine (((handlersSpots_standIn handlers _ _ _ _ _).last ?_).left _).left _
        simp [next_append, Spot.afterTry, Spot.behind, Spot.laidAll, Spot.attempt, Spot.top]
      · refine ((elsePart_standIn _ _ _ _ _ (allSpots_standIn orelse _)).last ?_).left _
        simp [next_append, Spot.afterTry, Spot.behind, Spot.laidAll, Spot.attempt, Spot.top]
      · refine (allSpots_standIn finalbody _).last ?_
        simp [next_append, Spot.afterTry, Spot.behind, Spot.laidAll, Spot.attempt, Spot.top]
    | matchCases subject cases =>
      simp only [Spot.laid, layOut]
      exact ((casesSpots_standIn cases _ _ _ _).last (by simp [next_append])).left _
    | _ => exact allStandIn_nil

/-- **What is laid out in a body stands in its layout.** -/
theorem allSpots_standIn : ∀ (body : List Stmt) (x : Spot),
    AllStandIn (allSpots x body) (x.laidAll body).1 x.fresh
  | [], _ => allStandIn_nil
  | s :: rest, x => by
    rintro y hy
    rcases List.mem_cons.1 hy with rfl | hy
    · exact (StandsIn.refl _ _).left _
    · exact AllStandIn.append ((inner_standIn s x).left _)
        ((allSpots_standIn rest (x.behind (x.laid s))).last rfl) y hy

theorem handlersSpots_standIn : ∀ (handlers : List Handler) (loop : Option Loop)
    (before bodyEnd after fresh : BlockId),
    AllStandIn (handlersSpots loop fresh handlers) (layOutHandlers loop before bodyEnd after fresh handlers)
      fresh
  | [], _, _, _, _, _ => allStandIn_nil
  | .at span type name body :: rest, loop, before, bodyEnd, after, fresh => by
    rw [layOutHandlers_cons before bodyEnd after span type name rest rfl]
    refine .append ((((allSpots_standIn body _).last ?_).left _).left _)
      ((handlersSpots_standIn rest _ _ _ _ _).last ?_)
    · simp [next_append, Spot.top]
    · simp [next_append, Spot.top, Spot.behind, Spot.laidAll]

theorem casesSpots_standIn : ∀ (cases : List Case) (loop : Option Loop) (branch after fresh : BlockId),
    AllStandIn (casesSpots loop fresh cases) (layOutCases loop branch after fresh cases) fresh
  | [], _, _, _, _ => allStandIn_nil
  | .of p guard body :: rest, loop, branch, after, fresh => by
    simp only [layOutCases, next_append, next_decides, next_opens, next_passes]
    refine .append ((((allSpots_standIn body _).last ?_).left _).left _)
      ((casesSpots_standIn rest _ _ _ _).last ?_)
    · simp [next_append, Spot.top]
    · simp [next_append, Spot.top, Spot.behind, Spot.laidAll]

end

end Reaching
