/-
Spans in the order of the source.

What a reader of source text says about positions is one fact on every part of a tree: a part
starts no earlier than what is written in front of it ends, it lies inside of the part it
belongs to, and it does not end before it starts (`Arranged`). The parts of a statement are
those that have spans of their own, in the order in which they are written, which is not that
of its fields: a target stands in front of the value in the header of a loop, and behind it in
an item.

A layout puts together what it places from such parts. `Origin` says from which, and
`allOrigins` lists the origins of a whole body next to its pieces. What is placed then stands
in the order of the source as well (`settled_allOrigins`): the span of a header starts with
the first and ends with the last of the parts it is made of, so the headers lie apart from
each other and from the bodies laid out behind them, however deep the nesting.
-/
import Mathlib.Order.Defs.LinearOrder
import Mathlib.Order.Lattice
import Reaching.Proofs.Placement

namespace Reaching

open Code

/-! ## Positions -/

/-- A place in source text. -/
structure Position where
  line : Int
  column : Int
  deriving DecidableEq, Repr

namespace Position

instance : LE Position := ⟨fun p q => p.line < q.line ∨ p.line = q.line ∧ p.column ≤ q.column⟩

instance : LT Position := ⟨fun p q => p.line < q.line ∨ p.line = q.line ∧ p.column < q.column⟩

theorem le_iff {p q : Position} : p ≤ q ↔ p.line < q.line ∨ p.line = q.line ∧ p.column ≤ q.column :=
  Iff.rfl

theorem lt_iff {p q : Position} : p < q ↔ p.line < q.line ∨ p.line = q.line ∧ p.column < q.column :=
  Iff.rfl

instance : DecidableLE Position := fun p q =>
  inferInstanceAs (Decidable (p.line < q.line ∨ p.line = q.line ∧ p.column ≤ q.column))

instance : DecidableLT Position := fun p q =>
  inferInstanceAs (Decidable (p.line < q.line ∨ p.line = q.line ∧ p.column < q.column))

instance : LinearOrder Position where
  le_refl p := by rw [le_iff]; omega
  le_trans p q r := by simp only [le_iff]; omega
  lt_iff_le_not_ge p q := by simp only [le_iff, lt_iff]; omega
  le_antisymm p q := by
    cases p
    cases q
    simp only [le_iff, Position.mk.injEq]
    omega
  le_total p q := by simp only [le_iff]; omega
  toDecidableLE := inferInstance
  toDecidableLT := inferInstance
  toDecidableEq := inferInstance

theorem line_le {p q : Position} (h : p ≤ q) : p.line ≤ q.line := by
  rw [le_iff] at h
  omega

/-- The start of a source text. -/
def first : Position := ⟨1, 0⟩

end Position

namespace Span

def start (s : Span) : Position := ⟨s.firstLine, s.firstColumn⟩

def stop (s : Span) : Position := ⟨s.lastLine, s.lastColumn⟩

theorem ext_positions {s t : Span} (hstart : s.start = t.start) (hstop : s.stop = t.stop) : s = t := by
  cases s
  cases t
  simp_all [start, stop]

/-- No known span starts in front of the source text. -/
theorem ne_unknown {s : Span} (h : Position.first ≤ s.start) : s ≠ unknown := by
  rintro rfl
  exact absurd h (by decide)

/-! ### Covers -/

/-- A span holds all of another one. -/
def Covers (s t : Span) : Prop := s.start ≤ t.start ∧ t.stop ≤ s.stop

/-- A span is the smallest one that covers some others. -/
structure Smallest (s : Span) (parts : List Span) : Prop where
  covers : ∀ t ∈ parts, s.Covers t
  least : ∀ u : Span, (∀ t ∈ parts, u.Covers t) → u.Covers s

/-- Two spans have nothing in common. -/
def Apart (s t : Span) : Prop := s.stop ≤ t.start ∨ t.stop ≤ s.start

theorem Apart.symm {s t : Span} (h : s.Apart t) : t.Apart s := Or.symm h

/-- Spans that have nothing in common are different, unless they are empty. -/
theorem Apart.ne {s t : Span} (h : s.Apart t) (hs : s.start < s.stop) : s ≠ t := by
  rintro rfl
  exact absurd hs (not_lt_of_ge (or_self_iff.1 h))

theorem startsBefore_iff {s t : Span} : s.startsBefore t = true ↔ s.start < t.start := by
  simp [startsBefore, Position.lt_iff, start]

theorem endsBefore_iff {s t : Span} : s.endsBefore t = true ↔ s.stop < t.stop := by
  simp [endsBefore, Position.lt_iff, stop]

theorem cover_start (s t : Span) : (s.cover t).start = min s.start t.start := by
  by_cases h : s.start < t.start
  · rw [min_eq_left h.le]
    simp [cover, start, startsBefore_iff.2 h]
  · rw [min_eq_right (not_lt.1 h)]
    have hstarts : s.startsBefore t = false := Bool.eq_false_iff.2 fun hs => h (startsBefore_iff.1 hs)
    simp [cover, start, hstarts]

theorem cover_stop (s t : Span) : (s.cover t).stop = max s.stop t.stop := by
  by_cases h : s.stop < t.stop
  · rw [max_eq_right h.le]
    simp [cover, stop, endsBefore_iff.2 h]
  · rw [max_eq_left (not_lt.1 h)]
    have hends : s.endsBefore t = false := Bool.eq_false_iff.2 fun hs => h (endsBefore_iff.1 hs)
    simp [cover, stop, hends]

theorem cover_comm (s t : Span) : s.cover t = t.cover s :=
  ext_positions (by rw [cover_start, cover_start, min_comm]) (by rw [cover_stop, cover_stop, max_comm])

theorem smallest_self (s : Span) : s.Smallest [s] where
  covers := fun t ht => by
    rw [List.mem_singleton.1 ht]
    exact ⟨le_rfl, le_rfl⟩
  least := fun _ hu => hu s (List.mem_singleton_self s)

theorem smallest_cover (s t : Span) : (s.cover t).Smallest [s, t] where
  covers := by
    intro u hu
    rw [Covers, cover_start, cover_stop]
    rcases List.mem_pair.1 hu with rfl | rfl
    · exact ⟨min_le_left .., le_max_left ..⟩
    · exact ⟨min_le_right .., le_max_right ..⟩
  least := by
    intro u hu
    obtain ⟨hsstart, hsstop⟩ := hu s (by simp)
    obtain ⟨htstart, htstop⟩ := hu t (by simp)
    rw [Covers, cover_start, cover_stop]
    exact ⟨le_min hsstart htstart, max_le hsstop htstop⟩

end Span

/-! ## Parts in order -/

/-- A part of a statement that has a span of its own. -/
inductive Part where
  | stmt (s : Stmt)
  | handler (h : Handler)
  | header (span : Span)

namespace Part

def span : Part → Span
  | .stmt s => s.span
  | .handler (.at span ..) => span
  | .header span => span

end Part

/-- The parts of an item: the value is written in front of its target. -/
def Code.WithItem.parts (i : WithItem) : List Part :=
  .header i.context.span :: i.target.toList.map fun t => .header t.span

/-- The parts of a case, which has no span itself. -/
def Code.Case.parts : Case → List Part
  | .of pattern guard body =>
    .header pattern.span :: (guard.toList.map fun e => Part.header e.span) ++ body.map .stmt

/-- The parts of a part, in the order in which they are written. A definition is one part,
whatever its body. -/
def Part.parts : Part → List Part
  | .stmt (.at _ (.ifElse test body orelse)) =>
    .header test.span :: (body.map .stmt ++ orelse.map .stmt)
  | .stmt (.at _ (.whileLoop test body orelse)) =>
    .header test.span :: (body.map .stmt ++ orelse.map .stmt)
  | .stmt (.at _ (.forLoop _ target iter body orelse)) =>
    .header target.span :: .header iter.span :: (body.map .stmt ++ orelse.map .stmt)
  | .stmt (.at _ (.withItems _ items body)) => items.flatMap WithItem.parts ++ body.map .stmt
  | .stmt (.at _ (.tryBlock _ body handlers orelse finalbody)) =>
    body.map .stmt ++ (handlers.map .handler ++ (orelse.map .stmt ++ finalbody.map .stmt))
  | .stmt (.at _ (.matchCases subject cases)) => .header subject.span :: cases.flatMap Case.parts
  | .stmt _ => []
  | .handler (.at _ type _ body) => (type.toList.map fun e => Part.header e.span) ++ body.map .stmt
  | .header _ => []

/-- Parts stand one behind the other between two positions, each with its own parts inside of
it. How far a part may be from its start to its end is told by `r`: a span may be empty, or it
may not. -/
inductive Arranged (r : Position → Position → Prop) : Position → List Part → Position → Prop
  | nil {lo hi : Position} : lo ≤ hi → Arranged r lo [] hi
  | cons {lo hi : Position} {p : Part} {rest : List Part} :
      lo ≤ p.span.start → r p.span.start p.span.stop → Arranged r p.span.start p.parts p.span.stop →
      Arranged r p.span.stop rest hi → Arranged r lo (p :: rest) hi

variable {r : Position → Position → Prop} {lo mid hi : Position}

theorem arranged_nil : Arranged r lo [] hi ↔ lo ≤ hi :=
  ⟨fun h => by cases h; assumption, .nil⟩

theorem arranged_cons {p : Part} {rest : List Part} :
    Arranged r lo (p :: rest) hi ↔
      lo ≤ p.span.start ∧ r p.span.start p.span.stop ∧ Arranged r p.span.start p.parts p.span.stop ∧
        Arranged r p.span.stop rest hi := by
  constructor
  · intro h
    cases h with
    | cons hlo hp hinside hrest => exact ⟨hlo, hp, hinside, hrest⟩
  · rintro ⟨hlo, hp, hinside, hrest⟩
    exact .cons hlo hp hinside hrest

theorem Arranged.widen {parts : List Part} (h : Arranged r mid parts hi) (hlo : lo ≤ mid) :
    Arranged r lo parts hi := by
  cases h with
  | nil hmid => exact .nil (hlo.trans hmid)
  | cons hmid hp hinside hrest => exact .cons (hlo.trans hmid) hp hinside hrest

theorem arranged_append {parts others : List Part} :
    Arranged r lo (parts ++ others) hi ↔
      ∃ mid, Arranged r lo parts mid ∧ Arranged r mid others hi := by
  induction parts generalizing lo with
  | nil =>
    constructor
    · exact fun h => ⟨lo, .nil le_rfl, h⟩
    · rintro ⟨mid, hmid, h⟩
      exact h.widen (arranged_nil.1 hmid)
  | cons p rest ih =>
    simp only [List.cons_append, arranged_cons, ih]
    constructor
    · rintro ⟨hlo, hp, hinside, mid, hrest, hothers⟩
      exact ⟨mid, ⟨hlo, hp, hinside, hrest⟩, hothers⟩
    · rintro ⟨mid, ⟨hlo, hp, hinside, hrest⟩, hothers⟩
      exact ⟨hlo, hp, hinside, mid, hrest, hothers⟩

/-- How far it is from a start to an end: not less than nothing, and more if there is more
around it. -/
structure Widening (r : Position → Position → Prop) : Prop where
  le : ∀ {a b}, r a b → a ≤ b
  left : ∀ {a b c}, a ≤ b → r b c → r a c
  right : ∀ {a b c}, r a b → b ≤ c → r a c

theorem widening_le : Widening (· ≤ ·) := ⟨id, le_trans, le_trans⟩

theorem widening_lt : Widening (· < ·) := ⟨le_of_lt, lt_of_le_of_lt, lt_of_lt_of_le⟩

theorem Arranged.le (hr : Widening r) {parts : List Part} (h : Arranged r lo parts hi) : lo ≤ hi := by
  induction h with
  | nil h => exact h
  | cons hlo hp _ _ _ ih => exact hlo.trans ((hr.le hp).trans ih)

/-! ## Where the pieces of a body come from -/

/-- What a layout places, by the parts of the source that it stands for. -/
inductive Origin where
  /-- A statement as it is. -/
  | whole (s : Stmt)
  /-- A test, a subject, an item or a type that is not bound. -/
  | test (e : Expr)
  /-- A value that is bound to a target. -/
  | binding (target value : Expr)
  /-- A handler that binds what it catches to a name. -/
  | caught (handler : Span) (name : String) (type : Expr)
  | parameter (p : Parameter)

namespace Origin

/-- What is placed. -/
def piece : Origin → Stmt
  | .whole s => s
  | .test e => testHeader e
  | .binding target value => bindingHeader (some target) value
  | .caught handler name type => bindingHeader (some (handlerTarget handler name)) type
  | .parameter p => parameterBinding p

/-- The spans of the parts. The name that a handler binds has no span of its own and counts as
being at the start of the handler. -/
def parts : Origin → List Span
  | .whole s => [s.span]
  | .test e => [e.span]
  | .binding target value => [target.span, value.span]
  | .caught handler name type => [(handlerTarget handler name).span, type.span]
  | .parameter p => [p.span]

/-- The span of what is placed is no larger than its parts ask for. Of a handler it runs from
the start of the handler to the end of the type. -/
structure Tight (o : Origin) : Prop where
  smallest : o.piece.span.Smallest o.parts
  caught : ∀ handler name type, o = .caught handler name type →
    o.piece.span.start = handler.start ∧ o.piece.span.stop = type.span.stop

theorem smallest (o : Origin) : o.piece.span.Smallest o.parts := by
  cases o with
  | whole s => exact Span.smallest_self _
  | test e => exact Span.smallest_self _
  | binding target value => exact Span.smallest_cover ..
  | caught handler name type => exact Span.smallest_cover ..
  | parameter p => exact Span.smallest_self _

/-- What an origin adds to the source. -/
def added : Origin → List Node
  | .caught handler name _ => [.expr (handlerTarget handler name)]
  | _ => []

end Origin

/-- Where the header of an item comes from. -/
def Code.WithItem.origin (i : WithItem) : Origin :=
  match i.target with
  | none => .test i.context
  | some target => .binding target i.context

/-- Where the header of a handler comes from, if it has one. -/
def handlerOrigin (span : Span) (type : Option Expr) (name : Option String) : List Origin :=
  match type, name with
  | none, _ => []
  | some type, none => [.test type]
  | some type, some name => [.caught span name type]

mutual

/-- Where the pieces of a statement come from, one by one. -/
def Code.Stmt.origins : Stmt → List Origin
  | .at _ (.ifElse test body orelse) => .test test :: (allOrigins body ++ allOrigins orelse)
  | .at _ (.whileLoop test body orelse) => .test test :: (allOrigins body ++ allOrigins orelse)
  | .at _ (.forLoop _ target iter body orelse) =>
    .binding target iter :: (allOrigins body ++ allOrigins orelse)
  | .at _ (.withItems _ items body) => items.map WithItem.origin ++ allOrigins body
  | .at _ (.tryBlock _ body handlers orelse finalbody) =>
    allOrigins body ++ handlersOrigins handlers ++ allOrigins orelse ++ allOrigins finalbody
  | .at _ (.matchCases subject cases) => .test subject :: casesOrigins cases
  | .at _ .breakLoop => []
  | .at _ .continueLoop => []
  | .at span form => [.whole (.at span form)]

/-- Where the pieces of statements come from. -/
def allOrigins : List Stmt → List Origin
  | [] => []
  | s :: rest => s.origins ++ allOrigins rest

/-- Where the pieces of handlers come from. -/
def handlersOrigins : List Handler → List Origin
  | [] => []
  | .at span type name body :: rest =>
    handlerOrigin span type name ++ allOrigins body ++ handlersOrigins rest

/-- Where the pieces of cases come from. -/
def casesOrigins : List Case → List Origin
  | [] => []
  | .of _ _ body :: rest => allOrigins body ++ casesOrigins rest

end

theorem map_piece_items (items : List WithItem) :
    (items.map WithItem.origin).map Origin.piece = itemHeaders items := by
  rw [itemHeaders, List.map_map]
  refine List.map_congr_left fun i _ => ?_
  obtain ⟨context, target⟩ := i
  cases target <;> rfl

theorem map_piece_handlerOrigin (span : Span) (type : Option Expr) (name : Option String) :
    (handlerOrigin span type name).map Origin.piece =
      (type.map (bindingHeader (name.map (handlerTarget span)))).toList := by
  cases type <;> cases name <;> rfl

mutual

/-- **Every piece of a statement has its origin**, in the order in which they are placed. -/
theorem Code.Stmt.map_piece_origins : ∀ s : Stmt, s.origins.map Origin.piece = s.pieces
  | .at span form => by
    cases form with
    | ifElse test body orelse =>
      simp [Stmt.origins, Stmt.pieces, Origin.piece, map_piece_allOrigins body, map_piece_allOrigins orelse]
    | whileLoop test body orelse =>
      simp [Stmt.origins, Stmt.pieces, Origin.piece, map_piece_allOrigins body, map_piece_allOrigins orelse]
    | forLoop isAsync target iter body orelse =>
      simp [Stmt.origins, Stmt.pieces, Origin.piece, map_piece_allOrigins body, map_piece_allOrigins orelse]
    | withItems isAsync items body =>
      rw [Stmt.origins, Stmt.pieces, List.map_append, map_piece_items, map_piece_allOrigins body]
    | tryBlock isGroup body handlers orelse finalbody =>
      simp [Stmt.origins, Stmt.pieces, map_piece_allOrigins body, map_piece_handlersOrigins handlers,
        map_piece_allOrigins orelse, map_piece_allOrigins finalbody]
    | matchCases subject cases =>
      simp [Stmt.origins, Stmt.pieces, Origin.piece, map_piece_casesOrigins cases]
    | _ => rfl

theorem map_piece_allOrigins : ∀ body : List Stmt, (allOrigins body).map Origin.piece = allPieces body
  | [] => rfl
  | s :: rest => by simp [allOrigins, allPieces, s.map_piece_origins, map_piece_allOrigins rest]

theorem map_piece_handlersOrigins : ∀ handlers : List Handler,
    (handlersOrigins handlers).map Origin.piece = handlersPieces handlers
  | [] => rfl
  | .at span type name body :: rest => by
    simp [handlersOrigins, handlersPieces, map_piece_handlerOrigin, map_piece_allOrigins body,
      map_piece_handlersOrigins rest]

theorem map_piece_casesOrigins : ∀ cases : List Case,
    (casesOrigins cases).map Origin.piece = casesPieces cases
  | [] => rfl
  | .of _ _ body :: rest => by
    simp [casesOrigins, casesPieces, map_piece_allOrigins body, map_piece_casesOrigins rest]

end

/-! ## What is placed stands in order -/

/-- What comes from some origins stands one behind the other between two positions, each piece
tight around its parts. -/
inductive Settled (r : Position → Position → Prop) : Position → List Origin → Position → Prop
  | nil {lo hi : Position} : lo ≤ hi → Settled r lo [] hi
  | cons {lo hi : Position} {o : Origin} {rest : List Origin} :
      lo ≤ o.piece.span.start → r o.piece.span.start o.piece.span.stop → o.Tight →
      Settled r o.piece.span.stop rest hi → Settled r lo (o :: rest) hi

namespace Settled

variable {os others : List Origin}

theorem widen (h : Settled r mid os hi) (hlo : lo ≤ mid) : Settled r lo os hi := by
  cases h with
  | nil hmid => exact .nil (hlo.trans hmid)
  | cons hmid ho htight hrest => exact .cons (hlo.trans hmid) ho htight hrest

theorem append (h : Settled r lo os mid) (hothers : Settled r mid others hi) :
    Settled r lo (os ++ others) hi := by
  induction h with
  | nil hlo => exact hothers.widen hlo
  | cons hlo ho htight _ ih => exact .cons hlo ho htight (ih hothers)

theorem reach (h : Settled r lo os mid) (hhi : mid ≤ hi) : Settled r lo os hi :=
  List.append_nil os ▸ h.append (.nil hhi)

theorem le (hr : Widening r) (h : Settled r lo os hi) : lo ≤ hi := by
  induction h with
  | nil h => exact h
  | cons hlo ho _ _ ih => exact hlo.trans ((hr.le ho).trans ih)

/-- **Everything that is placed lies between the two positions.** -/
theorem of_mem (hr : Widening r) (h : Settled r lo os hi) {o : Origin} (ho : o ∈ os) :
    lo ≤ o.piece.span.start ∧ r o.piece.span.start o.piece.span.stop ∧ o.piece.span.stop ≤ hi ∧ o.Tight := by
  induction h with
  | nil => cases ho
  | cons hlo hfirst htight hrest ih =>
    rcases List.mem_cons.1 ho with rfl | ho
    · exact ⟨hlo, hfirst, hrest.le hr, htight⟩
    · obtain ⟨hstart, hmore⟩ := ih ho
      exact ⟨(hlo.trans (hr.le hfirst)).trans hstart, hmore⟩

/-- **What is placed first ends before what is placed later starts.** -/
theorem pairwise (hr : Widening r) (h : Settled r lo os hi) :
    os.Pairwise fun o o' => o.piece.span.stop ≤ o'.piece.span.start := by
  induction h with
  | nil => exact .nil
  | cons _ _ _ hrest ih => exact .cons (fun o' ho' => (hrest.of_mem hr ho').1) ih

end Settled

/-- Two spans are covered from the start of the one that ends first to the end of the other. -/
theorem Span.cover_of_before {s t : Span} (hs : s.start ≤ s.stop) (h : s.stop ≤ t.start)
    (ht : t.start ≤ t.stop) : (s.cover t).start = s.start ∧ (s.cover t).stop = t.stop := by
  rw [cover_start, cover_stop]
  exact ⟨min_eq_left (hs.trans h), max_eq_right (h.trans ht)⟩

/-- What is neither a handler nor bound by one is tight. -/
theorem Origin.tight_of_ne {o : Origin} (h : ∀ handler name type, o ≠ .caught handler name type) : o.Tight :=
  ⟨o.smallest, fun handler name type ho => absurd ho (h handler name type)⟩

theorem settled_test (e : Expr) (hlo : lo ≤ e.span.start) (he : r e.span.start e.span.stop) :
    Settled r lo [.test e] e.span.stop :=
  .cons hlo he (Origin.tight_of_ne fun _ _ _ => nofun) (.nil le_rfl)

/-- The header of a value that is bound, whichever is written first. -/
theorem settled_binding (hr : Widening r) {target value : Expr} {s t : Span}
    (hparts : target.span.cover value.span = s.cover t) (hlo : lo ≤ s.start) (hs : r s.start s.stop)
    (hst : s.stop ≤ t.start) (ht : r t.start t.stop) :
    Settled r lo [.binding target value] t.stop := by
  obtain ⟨hstart, hstop⟩ := Span.cover_of_before (hr.le hs) hst (hr.le ht)
  have hspan : (Origin.binding target value).piece.span = s.cover t := hparts
  refine .cons ?_ ?_ (Origin.tight_of_ne fun _ _ _ => nofun) (.nil ?_)
  · rwa [hspan, hstart]
  · rw [hspan, hstart, hstop]
    exact hr.right hs (hst.trans (hr.le ht))
  · rw [hspan, hstop]

theorem settled_items (hr : Widening r) : ∀ (items : List WithItem) {lo hi : Position},
    Arranged r lo (items.flatMap WithItem.parts) hi → Settled r lo (items.map WithItem.origin) hi
  | [], _, _, h => .nil (arranged_nil.1 h)
  | ⟨context, target⟩ :: rest, _, _, h => by
    obtain ⟨mid, hitem, hrest⟩ := arranged_append.1 h
    obtain ⟨hlo, hcontext, -, htarget⟩ := arranged_cons.1 hitem
    have hmore := settled_items hr rest hrest
    cases target with
    | none => exact (settled_test context hlo hcontext).append (hmore.widen (arranged_nil.1 htarget))
    | some target =>
      obtain ⟨hbefore, htarget, -, hend⟩ := arranged_cons.1 htarget
      exact (settled_binding hr (Span.cover_comm ..) hlo hcontext hbefore htarget).append
        (hmore.widen (arranged_nil.1 hend))

/-- The header of a handler starts with the handler and ends with the type. -/
theorem settled_handlerOrigin (hr : Widening r) (span : Span) (type : Option Expr) (name : Option String)
    {hi : Position} (h : Arranged r span.start (type.toList.map fun e => Part.header e.span) hi) :
    Settled r span.start (handlerOrigin span type name) hi := by
  cases type with
  | none => exact .nil (arranged_nil.1 h)
  | some type =>
    obtain ⟨hlo, htype, -, hend⟩ := arranged_cons.1 h
    cases name with
    | none => exact (settled_test type hlo htype).reach (arranged_nil.1 hend)
    | some name =>
      have hcover := Span.cover_of_before (s := (handlerTarget span name).span) (le_refl span.start) hlo
        (hr.le htype)
      have hstart : (Origin.caught span name type).piece.span.start = span.start := hcover.1
      have hstop : (Origin.caught span name type).piece.span.stop = type.span.stop := hcover.2
      refine .cons hstart.ge ?_ ⟨Origin.smallest _, ?_⟩ (.nil ?_)
      · rw [hstart, hstop]
        exact hr.left hlo htype
      · rintro handler' name' type' heq
        cases heq
        exact hcover
      · rw [hstop]
        exact arranged_nil.1 hend

/-- Parameters stand in order on entry. -/
theorem settled_parameters : ∀ (ps : List Parameter) {lo hi : Position},
    Arranged r lo (ps.map fun p => .header p.span) hi → Settled r lo (ps.map .parameter) hi
  | [], _, _, h => .nil (arranged_nil.1 h)
  | p :: rest, _, _, h => by
    obtain ⟨hlo, hp, -, hrest⟩ := arranged_cons.1 h
    exact .cons hlo hp (Origin.tight_of_ne fun _ _ _ => nofun) (settled_parameters rest hrest)

/-- A statement that is placed as it is. -/
theorem settled_whole {s : Stmt} (hs : r s.span.start s.span.stop) :
    Settled r s.span.start [.whole s] s.span.stop :=
  .cons le_rfl hs (Origin.tight_of_ne fun _ _ _ => nofun) (.nil le_rfl)

mutual

/-- **The pieces of a statement stand in the order of the source, inside of the statement.** -/
theorem Code.Stmt.settled (hr : Widening r) : ∀ s : Stmt, r s.span.start s.span.stop →
    Arranged r s.span.start (Part.stmt s).parts s.span.stop →
    Settled r s.span.start s.origins s.span.stop
  | .at span form, hs, h => by
    cases form with
    | ifElse test body orelse =>
      obtain ⟨hlo, htest, -, hparts⟩ := arranged_cons.1 h
      obtain ⟨mid, hbody, horelse⟩ := arranged_append.1 hparts
      exact (settled_test test hlo htest).append
        ((settled_allOrigins hr body hbody).append (settled_allOrigins hr orelse horelse))
    | whileLoop test body orelse =>
      obtain ⟨hlo, htest, -, hparts⟩ := arranged_cons.1 h
      obtain ⟨mid, hbody, horelse⟩ := arranged_append.1 hparts
      exact (settled_test test hlo htest).append
        ((settled_allOrigins hr body hbody).append (settled_allOrigins hr orelse horelse))
    | forLoop isAsync target iter body orelse =>
      obtain ⟨hlo, htarget, -, hmore⟩ := arranged_cons.1 h
      obtain ⟨hbefore, hiter, -, hparts⟩ := arranged_cons.1 hmore
      obtain ⟨mid, hbody, horelse⟩ := arranged_append.1 hparts
      exact (settled_binding hr rfl hlo htarget hbefore hiter).append
        ((settled_allOrigins hr body hbody).append (settled_allOrigins hr orelse horelse))
    | withItems isAsync items body =>
      obtain ⟨mid, hitems, hbody⟩ := arranged_append.1 h
      exact (settled_items hr items hitems).append (settled_allOrigins hr body hbody)
    | tryBlock isGroup body handlers orelse finalbody =>
      obtain ⟨bodyEnd, hbody, hmore⟩ := arranged_append.1 h
      obtain ⟨handlersEnd, hhandlers, hmore⟩ := arranged_append.1 hmore
      obtain ⟨orelseEnd, horelse, hfinal⟩ := arranged_append.1 hmore
      exact (((settled_allOrigins hr body hbody).append (settled_handlersOrigins hr handlers hhandlers)).append
        (settled_allOrigins hr orelse horelse)).append (settled_allOrigins hr finalbody hfinal)
    | matchCases subject cases =>
      obtain ⟨hlo, hsubject, -, hcases⟩ := arranged_cons.1 h
      exact (settled_test subject hlo hsubject).append (settled_casesOrigins hr cases hcases)
    | breakLoop => exact .nil (hr.le hs)
    | continueLoop => exact .nil (hr.le hs)
    | _ => exact settled_whole hs

theorem settled_allOrigins (hr : Widening r) : ∀ (body : List Stmt) {lo hi : Position},
    Arranged r lo (body.map .stmt) hi → Settled r lo (allOrigins body) hi
  | [], _, _, h => .nil (arranged_nil.1 h)
  | s :: rest, _, _, h => by
    obtain ⟨hlo, hs, hinside, hrest⟩ := arranged_cons.1 h
    exact ((s.settled hr hs hinside).widen hlo).append (settled_allOrigins hr rest hrest)

theorem settled_handlersOrigins (hr : Widening r) : ∀ (handlers : List Handler) {lo hi : Position},
    Arranged r lo (handlers.map .handler) hi → Settled r lo (handlersOrigins handlers) hi
  | [], _, _, h => .nil (arranged_nil.1 h)
  | .at span type name body :: rest, _, _, h => by
    obtain ⟨hlo, -, hinside, hrest⟩ := arranged_cons.1 h
    obtain ⟨mid, htype, hbody⟩ := arranged_append.1 hinside
    exact (((settled_handlerOrigin hr span type name htype).widen hlo).append
      (settled_allOrigins hr body hbody)).append (settled_handlersOrigins hr rest hrest)

theorem settled_casesOrigins (hr : Widening r) : ∀ (cases : List Case) {lo hi : Position},
    Arranged r lo (cases.flatMap Case.parts) hi → Settled r lo (casesOrigins cases) hi
  | [], _, _, h => .nil (arranged_nil.1 h)
  | .of pattern guard body :: rest, _, _, h => by
    obtain ⟨mid, hcase, hrest⟩ := arranged_append.1 h
    obtain ⟨conditionEnd, hcondition, hbody⟩ := arranged_append.1 hcase
    exact ((settled_allOrigins hr body hbody).widen (hcondition.le hr)).append
      (settled_casesOrigins hr rest hrest)

end

end Reaching
