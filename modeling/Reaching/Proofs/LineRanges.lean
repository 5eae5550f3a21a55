/-
The lines of blocks against those of the statements in them.

A block opens on a line that is known before its statements are. Most blocks open on the line
where the first of them is: the parts of statements on that of their first statement or of what
heads them, the block behind a jump on that of the jump. The block behind a compound statement
opens on the last line of the statement, and what is placed in it comes later — but for the
`finally` part of a `try` statement, which belongs to the statement and starts in the block
behind it.

So all blocks start in time just when no `finally` part places a statement in the block where
it begins that starts in front of the last line of its `try` statement (`allFinalsLate`,
`Graph.lines_cover_iff`). A layout is followed with the line of every block given in advance
(`Fragment.Lined`), and what it places in the current block is kept apart from the rest
(`Timed`), since only the former depends on where the layout stands.
-/
import Reaching.Proofs.SourceOrder
import Reaching.Proofs.Spots

namespace Reaching

open Code Fragment

/-! ## What is placed in the block where a part begins -/

mutual

/-- Whether what follows a statement goes into the block in which the statement begins. -/
def Code.Stmt.staysOpen (inLoop : Bool) : Stmt → Bool
  | .at _ (.withItems _ _ body) => allStayOpen inLoop body
  | .at _ (.ifElse ..) => false
  | .at _ (.whileLoop ..) => false
  | .at _ (.forLoop ..) => false
  | .at _ (.tryBlock ..) => false
  | .at _ (.matchCases ..) => false
  | .at _ (.ret _) => false
  | .at _ .breakLoop => !inLoop
  | .at _ .continueLoop => !inLoop
  | .at _ _ => true

def allStayOpen (inLoop : Bool) : List Stmt → Bool
  | [] => true
  | s :: rest => s.staysOpen inLoop && allStayOpen inLoop rest

end

mutual

/-- What a statement places in the block in which it begins. A loop and the body of a `try`
statement begin in blocks of their own. -/
def Code.Stmt.leading (inLoop : Bool) : Stmt → List Stmt
  | .at _ (.withItems _ items body) => itemHeaders items ++ allLeading inLoop body
  | .at _ (.ifElse test _ _) => [testHeader test]
  | .at _ (.whileLoop ..) => []
  | .at _ (.forLoop ..) => []
  | .at _ (.tryBlock ..) => []
  | .at _ (.matchCases subject _) => [testHeader subject]
  | .at _ .breakLoop => []
  | .at _ .continueLoop => []
  | .at span form => [.at span form]

/-- What statements place in the block in which the first of them begins. -/
def allLeading (inLoop : Bool) : List Stmt → List Stmt
  | [] => []
  | s :: rest => s.leading inLoop ++ if s.staysOpen inLoop then allLeading inLoop rest else []

end

mutual

/-- The `finally` parts in a statement place nothing in the blocks where they begin that starts
in front of the last line of their `try` statements. A definition is left alone. -/
def Code.Stmt.FinalsLate (inLoop : Bool) : Stmt → Prop
  | .at _ (.ifElse _ body orelse) => allFinalsLate inLoop body ∧ allFinalsLate inLoop orelse
  | .at _ (.whileLoop _ body orelse) => allFinalsLate true body ∧ allFinalsLate inLoop orelse
  | .at _ (.forLoop _ _ _ body orelse) => allFinalsLate true body ∧ allFinalsLate inLoop orelse
  | .at _ (.withItems _ _ body) => allFinalsLate inLoop body
  | .at span (.tryBlock _ body handlers orelse finalbody) =>
    allFinalsLate inLoop body ∧ handlersFinalsLate inLoop handlers ∧ allFinalsLate inLoop orelse ∧
      (∀ p ∈ allLeading inLoop finalbody, span.lastLine ≤ p.span.firstLine) ∧
      allFinalsLate inLoop finalbody
  | .at _ (.matchCases _ cases) => casesFinalsLate inLoop cases
  | .at _ _ => True

def allFinalsLate (inLoop : Bool) : List Stmt → Prop
  | [] => True
  | s :: rest => s.FinalsLate inLoop ∧ allFinalsLate inLoop rest

def handlersFinalsLate (inLoop : Bool) : List Handler → Prop
  | [] => True
  | .at _ _ _ body :: rest => allFinalsLate inLoop body ∧ handlersFinalsLate inLoop rest

def casesFinalsLate (inLoop : Bool) : List Case → Prop
  | [] => True
  | .of _ _ body :: rest => allFinalsLate inLoop body ∧ casesFinalsLate inLoop rest

end

mutual

/-- What is placed in the first block is placed. -/
theorem Code.Stmt.leading_subset (inLoop : Bool) : ∀ s : Stmt, s.leading inLoop ⊆ s.pieces
  | .at span form => by
    cases form with
    | withItems isAsync items body =>
      exact List.append_subset.2 ⟨List.subset_append_left .., fun p hp =>
        List.mem_append_right _ (allLeading_subset inLoop body hp)⟩
    | ifElse test body orelse => exact List.cons_subset.2 ⟨List.mem_cons_self .., List.nil_subset _⟩
    | whileLoop test body orelse => exact List.nil_subset _
    | forLoop isAsync target iter body orelse => exact List.nil_subset _
    | tryBlock isGroup body handlers orelse finalbody => exact List.nil_subset _
    | matchCases subject cases => exact List.cons_subset.2 ⟨List.mem_cons_self .., List.nil_subset _⟩
    | _ => exact List.Subset.refl _

theorem allLeading_subset (inLoop : Bool) : ∀ body : List Stmt, allLeading inLoop body ⊆ allPieces body
  | [] => List.nil_subset _
  | s :: rest => by
    have hs := s.leading_subset inLoop
    have hrest := allLeading_subset inLoop rest
    rw [allLeading, allPieces]
    refine List.append_subset.2 ⟨fun p hp => List.mem_append_left _ (hs hp), ?_⟩
    split
    · exact fun p hp => List.mem_append_right _ (hrest hp)
    · exact List.nil_subset _

end

/-! ## Lines of blocks -/

namespace Fragment

variable {f g : Fragment} {n : BlockId} {L : BlockId → Int}

/-- The blocks that open are those whose lines are given in advance. -/
def Lined (f : Fragment) (n : BlockId) (L : BlockId → Int) : Prop := ∀ i o, f.OpensAt n i o → L i = o.line

/-- What is placed starts no earlier than its block. -/
def InTime (f : Fragment) (L : BlockId → Int) : Prop := ∀ p ∈ f.placed, L p.1 ≤ p.2.span.firstLine

@[simp] theorem lined_append : (f ++ g).Lined n L ↔ f.Lined n L ∧ g.Lined (f.next n) L := by
  simp only [Lined, opensAt_append, or_imp, forall_and]

theorem lined_of_opened (h : f.opened = []) : f.Lined n L := by
  rintro i o ⟨k, hk, -⟩
  rw [h] at hk
  cases hk

@[simp] theorem lined_opens {kind : BlockKind} {line : Int} : (opens kind line).Lined n L ↔ L n = line := by
  constructor
  · exact fun h => h n ⟨kind, line⟩ ⟨0, rfl, (Int.add_zero n).symm⟩
  · rintro h i o ⟨k, hk, rfl⟩
    obtain ⟨hlt, ho⟩ := List.getElem?_eq_some_iff.1 hk
    obtain rfl : k = 0 := Nat.lt_one_iff.1 hlt
    rw [← ho]
    simpa using h

@[simp] theorem inTime_append : (f ++ g).InTime L ↔ f.InTime L ∧ g.InTime L := by
  show (∀ p ∈ f.placed ++ g.placed, _) ↔ _
  simp only [List.mem_append, or_imp, forall_and, InTime]

theorem inTime_of_placed (h : f.placed = []) : f.InTime L := by
  intro p hp
  rw [h] at hp
  cases hp

@[simp] theorem inTime_placing {b : BlockId} {statements : List Stmt} :
    (f.placing b statements).InTime L ↔ f.InTime L ∧ ∀ s ∈ statements, L b ≤ s.span.firstLine := by
  simp [InTime, placed_placing, or_imp, forall_and]

@[simp] theorem inTime_places {b : BlockId} {s : Stmt} :
    (places b s).InTime L ↔ L b ≤ s.span.firstLine := by
  simp [InTime, places]

section
variable {b c : BlockId} {s : Stmt} {kind : TransferKind} {blockKind : BlockKind} {text : Option String}
  {line : Int} {statements : List Stmt}

@[simp] theorem lined_places : (places b s).Lined n L := lined_of_opened rfl
@[simp] theorem lined_passes : (passes b c kind text).Lined n L := lined_of_opened rfl
@[simp] theorem lined_turns : (turns b blockKind).Lined n L := lined_of_opened rfl
@[simp] theorem lined_returnsFrom : (returnsFrom b).Lined n L := lined_of_opened rfl
@[simp] theorem lined_decides : decides.Lined n L := lined_of_opened rfl
@[simp] theorem lined_empty : Fragment.Lined {} n L := lined_of_opened rfl

@[simp] theorem lined_placing : (f.placing b statements).Lined n L ↔ f.Lined n L := by
  simp only [Lined, OpensAt, opened_placing]

@[simp] theorem inTime_passes : (passes b c kind text).InTime L := inTime_of_placed rfl
@[simp] theorem inTime_turns : (turns b blockKind).InTime L := inTime_of_placed rfl
@[simp] theorem inTime_returnsFrom : (returnsFrom b).InTime L := inTime_of_placed rfl
@[simp] theorem inTime_decides : decides.InTime L := inTime_of_placed rfl
@[simp] theorem inTime_empty : Fragment.InTime {} L := inTime_of_placed rfl
@[simp] theorem inTime_opens : (opens blockKind line).InTime L := inTime_of_placed rfl

end

end Fragment

/-! ## Lines of statements -/

/-- What comes from settled parts starts no earlier than what is in front of them. -/
theorem Settled.line_le {os : List Origin} {lo hi : Position} (h : Settled (· ≤ ·) lo os hi) :
    ∀ s ∈ os.map Origin.piece, lo.line ≤ s.span.firstLine := by
  intro s hs
  obtain ⟨o, ho, rfl⟩ := List.mem_map.1 hs
  exact Position.line_le (h.of_mem widening_le ho).1

/-- So do the pieces of statements in the order of the source. -/
theorem firstLine_of_arranged {body : List Stmt} {lo hi : Position}
    (h : Arranged (· ≤ ·) lo (body.map .stmt) hi) : ∀ p ∈ allPieces body, lo.line ≤ p.span.firstLine := by
  rw [← map_piece_allOrigins]
  exact (settled_allOrigins widening_le body h).line_le

/-- They start no earlier than the first of them. -/
theorem startLine_le {body : List Stmt} {lo hi : Position} (h : Arranged (· ≤ ·) lo (body.map .stmt) hi)
    (line : Int) : ∀ p ∈ allPieces body, startLine body line ≤ p.span.firstLine := by
  cases body with
  | nil => exact fun p hp => nomatch hp
  | cons s rest =>
    obtain ⟨-, hs, hinside, hrest⟩ := arranged_cons.1 h
    have hbody : Arranged (· ≤ ·) s.span.start ((s :: rest).map .stmt) hi :=
      arranged_cons.2 ⟨le_rfl, hs, hinside, hrest⟩
    exact firstLine_of_arranged hbody

/-! ## Layouts in time -/

/-- A part is laid out in time just when what it places in the current block is, and `late`
holds of it. It ends in the current block, or in one that opens no later than the part ends. -/
structure Timed (L : BlockId → Int) (current : BlockId) (laid : Laid) (leading : List Stmt) (stays : Bool)
    (late : Prop) (hi : Position) : Prop where
  inTime : laid.1.InTime L ↔ (∀ p ∈ leading, L current ≤ p.span.firstLine) ∧ late
  last : if stays then laid.2 = current else L laid.2 ≤ hi.line

/-- Statements in the order of the source are laid out in time wherever they are. -/
def AllTimed (L : BlockId → Int) (loop : Option Loop) (body : List Stmt) : Prop :=
  ∀ (current fresh : BlockId) (lo hi : Position), Arranged (· ≤ ·) lo (body.map .stmt) hi →
    (layOutAll loop current fresh body).1.Lined fresh L →
    Timed L current (layOutAll loop current fresh body) (allLeading loop.isSome body)
      (allStayOpen loop.isSome body) (allFinalsLate loop.isSome body) hi

variable {L : BlockId → Int} {loop : Option Loop} {current fresh : BlockId} {lo mid hi : Position}

/-- Statements in a block that opens in time. -/
theorem AllTimed.inTime {body : List Stmt} (h : AllTimed L loop body) {block fresh : BlockId}
    (harranged : Arranged (· ≤ ·) lo (body.map .stmt) hi)
    (hlined : (layOutAll loop block fresh body).1.Lined fresh L)
    (hblock : ∀ p ∈ allPieces body, L block ≤ p.span.firstLine) :
    (layOutAll loop block fresh body).1.InTime L ↔ allFinalsLate loop.isSome body := by
  rw [(h block fresh lo hi harranged hlined).inTime]
  exact and_iff_right fun p hp => hblock p (allLeading_subset _ body hp)

theorem elsePart_inTime (before after fresh : BlockId) (kind : TransferKind) (text : Option String)
    {orelse : List Stmt} (h : AllTimed L loop orelse)
    (harranged : Arranged (· ≤ ·) lo (orelse.map .stmt) hi)
    (hlined : (elsePart loop before after fresh kind text orelse).Lined fresh L) :
    (elsePart loop before after fresh kind text orelse).InTime L ↔ allFinalsLate loop.isSome orelse := by
  cases orelse with
  | nil => simp [elsePart, allFinalsLate]
  | cons s rest =>
    simp only [elsePart, lined_append, lined_opens, lined_passes, next_append, next_opens, next_passes,
      and_true] at hlined
    obtain ⟨hline, hrest⟩ := hlined
    have hblock : ∀ p ∈ allPieces (s :: rest), L fresh ≤ p.span.firstLine := by
      rw [hline]
      exact startLine_le harranged 0
    simp only [elsePart, inTime_append, inTime_opens, inTime_passes, true_and, and_true]
    exact h.inTime harranged hrest hblock

/-- A single statement laid out in time, from its start to its end. -/
def Code.Stmt.IsTimed (s : Stmt) (L : BlockId → Int) (loop : Option Loop) : Prop :=
  ∀ current fresh : BlockId, s.span.start ≤ s.span.stop →
    Arranged (· ≤ ·) s.span.start (Part.stmt s).parts s.span.stop →
    (layOut loop current fresh s).1.Lined fresh L →
    Timed L current (layOut loop current fresh s) (s.leading loop.isSome) (s.staysOpen loop.isSome)
      (s.FinalsLate loop.isSome) s.span.stop

theorem timed_ifElse (span : Span) (test : Expr) {body orelse : List Stmt} (hbody : AllTimed L loop body)
    (horelse : AllTimed L loop orelse) : (Stmt.at span (.ifElse test body orelse)).IsTimed L loop := by
  intro current fresh _ harranged hlined
  obtain ⟨-, -, -, hparts⟩ := arranged_cons.1 harranged
  obtain ⟨mid, hbodyIn, horelseIn⟩ := arranged_append.1 hparts
  rw [layOut_ifElse span test orelse rfl] at hlined ⊢
  simp only [lined_append, lined_decides, lined_places, lined_turns, lined_opens, lined_passes, next_append,
    next_decides, next_places, next_turns, next_opens, next_passes, true_and, and_true, Int.add_assoc,
    Int.reduceAdd] at hlined
  obtain ⟨⟨⟨hthen, hmerge⟩, hlb⟩, hlo⟩ := hlined
  have hfirst : ∀ p ∈ allPieces body, L fresh ≤ p.span.firstLine := hthen ▸ startLine_le hbodyIn _
  refine ⟨?_, ?_⟩
  · simp only [inTime_append, inTime_decides, inTime_places, inTime_turns, inTime_opens, inTime_passes,
      true_and, and_true, hbody.inTime hbodyIn hlb hfirst, elsePart_inTime _ _ _ _ _ horelse horelseIn hlo]
    simp [Stmt.leading, Stmt.FinalsLate, and_assoc]
  · exact Int.le_of_eq hmerge

/-- A loop is laid out in time, its header in a block that opens on the first line of the loop. -/
theorem timed_loop (header : Stmt) (links : LoopLinks) (span : Span) {body orelse : List Stmt}
    (hbody : ∀ inner, AllTimed L (some inner) body) (horelse : AllTimed L loop orelse)
    (hheader : span.firstLine ≤ header.span.firstLine)
    (hbodyIn : Arranged (· ≤ ·) lo (body.map .stmt) mid) (horelseIn : Arranged (· ≤ ·) mid (orelse.map .stmt) hi)
    (hlined : (layOutLoop header links span (startLine body span.firstLine)
      (orelse.head?.map (·.span.firstLine)) (fun inner c f => layOutAll (some inner) c f body)
      (fun _ c f => layOutAll loop c f orelse) current fresh).1.Lined fresh L) :
    Timed L current
      (layOutLoop header links span (startLine body span.firstLine) (orelse.head?.map (·.span.firstLine))
        (fun inner c f => layOutAll (some inner) c f body) (fun _ c f => layOutAll loop c f orelse)
        current fresh)
      [] false (allFinalsLate true body ∧ allFinalsLate loop.isSome orelse) span.stop := by
  rw [layOutLoop_eq header links span _ orelse rfl] at hlined ⊢
  simp only [lined_append, lined_decides, lined_places, lined_opens, lined_passes, next_append,
    next_decides, next_places, next_opens, next_passes, true_and, and_true, Int.add_assoc,
    Int.reduceAdd] at hlined
  obtain ⟨⟨⟨⟨hguard, hafter⟩, hturn⟩, hlb⟩, hlo⟩ := hlined
  have hfirst : ∀ p ∈ allPieces body, L (fresh + 2) ≤ p.span.firstLine := hturn ▸ startLine_le hbodyIn _
  refine ⟨?_, Int.le_of_eq hafter⟩
  simp only [inTime_append, inTime_decides, inTime_places, inTime_opens, inTime_passes, true_and, and_true,
    (hbody _).inTime hbodyIn hlb hfirst, elsePart_inTime _ _ _ _ _ horelse horelseIn hlo, hguard, hheader,
    List.not_mem_nil, false_imp_iff, implies_true, Option.isSome_some]

theorem timed_while (span : Span) (test : Expr) {body orelse : List Stmt}
    (hbody : ∀ inner, AllTimed L (some inner) body) (horelse : AllTimed L loop orelse) :
    (Stmt.at span (.whileLoop test body orelse)).IsTimed L loop := by
  intro current fresh _ harranged hlined
  obtain ⟨htest, -, -, hparts⟩ := arranged_cons.1 harranged
  obtain ⟨mid, hbodyIn, horelseIn⟩ := arranged_append.1 hparts
  exact timed_loop (testHeader test) (whileLinks test) span hbody horelse (Position.line_le htest) hbodyIn
    horelseIn hlined

theorem timed_for (span : Span) (isAsync : Bool) (target iter : Expr) {body orelse : List Stmt}
    (hbody : ∀ inner, AllTimed L (some inner) body) (horelse : AllTimed L loop orelse) :
    (Stmt.at span (.forLoop isAsync target iter body orelse)).IsTimed L loop := by
  intro current fresh _ harranged hlined
  obtain ⟨htarget, hwide, -, hmore⟩ := arranged_cons.1 harranged
  obtain ⟨hbefore, hiter, -, hparts⟩ := arranged_cons.1 hmore
  obtain ⟨mid, hbodyIn, horelseIn⟩ := arranged_append.1 hparts
  have hheader := (Span.cover_of_before hwide hbefore hiter).1
  have hline : span.firstLine ≤ (bindingHeader (some target) iter).span.firstLine :=
    Position.line_le (htarget.trans hheader.ge)
  exact timed_loop (bindingHeader (some target) iter) (forLinks target iter) span hbody horelse hline hbodyIn
    horelseIn hlined

theorem timed_with (span : Span) (isAsync : Bool) (items : List WithItem) {body : List Stmt}
    (hbody : AllTimed L loop body) : (Stmt.at span (.withItems isAsync items body)).IsTimed L loop := by
  intro current fresh _ harranged hlined
  obtain ⟨mid, hitems, hbodyIn⟩ := arranged_append.1 harranged
  rw [layOut_withItems span isAsync items rfl, ← itemHeaders] at hlined ⊢
  simp only [lined_append, lined_placing, lined_empty, next_placing, next_empty, true_and] at hlined
  obtain ⟨htime, hlast⟩ := hbody current fresh _ _ hbodyIn hlined
  refine ⟨?_, hlast⟩
  simp only [inTime_append, inTime_placing, inTime_empty, true_and, htime, Stmt.leading, Stmt.FinalsLate,
    List.mem_append, or_imp, forall_and, and_assoc]

/-- Handlers are laid out in time, their headers in blocks that open on the first lines of the
handlers. -/
def HandlersTimed (L : BlockId → Int) (loop : Option Loop) (handlers : List Handler) : Prop :=
  ∀ (before bodyEnd after fresh : BlockId) (lo hi : Position),
    Arranged (· ≤ ·) lo (handlers.map .handler) hi →
    (layOutHandlers loop before bodyEnd after fresh handlers).Lined fresh L →
    ((layOutHandlers loop before bodyEnd after fresh handlers).InTime L ↔
      handlersFinalsLate loop.isSome handlers)

theorem handlersTimed_nil : HandlersTimed L loop [] := fun _ _ _ _ _ _ _ _ => by
  simp [layOutHandlers, handlersFinalsLate]

theorem handlersTimed_cons (span : Span) (type : Option Expr) (name : Option String) {body : List Stmt}
    {rest : List Handler} (hbody : AllTimed L loop body) (hrest : HandlersTimed L loop rest) :
    HandlersTimed L loop (.at span type name body :: rest) := by
  intro before bodyEnd after fresh lo hi harranged hlined
  obtain ⟨-, -, hinside, hrestIn⟩ := arranged_cons.1 harranged
  obtain ⟨mid, htype, hbodyIn⟩ := arranged_append.1 hinside
  rw [layOutHandlers_cons before bodyEnd after span type name rest rfl] at hlined ⊢
  simp only [lined_append, lined_decides, lined_opens, lined_passes, lined_placing, lined_empty, next_append,
    next_decides, next_opens, next_passes, next_placing, next_empty, true_and, and_true] at hlined
  obtain ⟨⟨hline, hlb⟩, hlr⟩ := hlined
  have hheader : ∀ s ∈ (type.map (bindingHeader (name.map (handlerTarget span)))).toList,
      L fresh ≤ s.span.firstLine := by
    rw [← map_piece_handlerOrigin, hline]
    exact (settled_handlerOrigin widening_le span type name htype).line_le
  have hfirst : ∀ p ∈ allPieces body, L fresh ≤ p.span.firstLine := by
    rw [hline]
    exact firstLine_of_arranged (hbodyIn.widen (htype.le widening_le))
  simp only [inTime_append, inTime_decides, inTime_opens, inTime_passes, inTime_placing, inTime_empty, true_and,
    and_true, hbody.inTime hbodyIn hlb hfirst, hrest _ _ _ _ _ _ hrestIn hlr, handlersFinalsLate,
    and_iff_right hheader]

/-- Cases are laid out in time, in blocks that open on the first lines of their patterns. -/
def CasesTimed (L : BlockId → Int) (loop : Option Loop) (cases : List Case) : Prop :=
  ∀ (branch after fresh : BlockId) (lo hi : Position),
    Arranged (· ≤ ·) lo (cases.flatMap Case.parts) hi →
    (layOutCases loop branch after fresh cases).Lined fresh L →
    ((layOutCases loop branch after fresh cases).InTime L ↔ casesFinalsLate loop.isSome cases)

theorem casesTimed_nil : CasesTimed L loop [] := fun _ _ _ _ _ _ _ => by simp [layOutCases, casesFinalsLate]

theorem casesTimed_cons (pattern : Code.Pattern) (guard : Option Expr) {body : List Stmt} {rest : List Case}
    (hbody : AllTimed L loop body) (hrest : CasesTimed L loop rest) :
    CasesTimed L loop (.of pattern guard body :: rest) := by
  intro branch after fresh lo hi harranged hlined
  obtain ⟨mid, hcase, hrestIn⟩ := arranged_append.1 harranged
  obtain ⟨bodyStart, hcondition, hbodyIn⟩ := arranged_append.1 hcase
  obtain ⟨-, hpattern, -, hguard⟩ := arranged_cons.1 hcondition
  simp only [layOutCases, lined_append, lined_decides, lined_opens, lined_passes, next_append, next_decides,
    next_opens, next_passes, true_and, and_true] at hlined
  obtain ⟨⟨hline, hlb⟩, hlr⟩ := hlined
  have hfirst : ∀ p ∈ allPieces body, L fresh ≤ p.span.firstLine := by
    rw [hline]
    exact firstLine_of_arranged (hbodyIn.widen (hpattern.trans (hguard.le widening_le)))
  simp only [layOutCases, inTime_append, inTime_decides, inTime_opens, inTime_passes, true_and, and_true,
    next_append, next_decides, next_opens, next_passes,
    hbody.inTime hbodyIn hlb hfirst, hrest _ _ _ _ _ hrestIn hlr, casesFinalsLate]

theorem timed_match (span : Span) (subject : Expr) {cases : List Case} (hcases : CasesTimed L loop cases) :
    (Stmt.at span (.matchCases subject cases)).IsTimed L loop := by
  intro current fresh _ harranged hlined
  obtain ⟨-, -, -, hcasesIn⟩ := arranged_cons.1 harranged
  simp only [layOut, lined_append, lined_places, lined_turns, lined_opens, lined_passes, next_append,
    next_places, next_turns, next_opens, true_and, and_true] at hlined
  obtain ⟨hafter, hlc⟩ := hlined
  refine ⟨?_, Int.le_of_eq hafter⟩
  simp only [layOut, inTime_append, inTime_places, inTime_turns, inTime_opens, inTime_passes, and_true,
    hcases _ _ _ _ _ hcasesIn hlc, Stmt.leading, Stmt.FinalsLate, List.mem_singleton, forall_eq]

theorem timed_try (span : Span) (isGroup : Bool) {body : List Stmt} {handlers : List Handler}
    {orelse finalbody : List Stmt} (hbody : AllTimed L loop body) (hhandlers : HandlersTimed L loop handlers)
    (horelse : AllTimed L loop orelse) (hfinal : AllTimed L loop finalbody) :
    (Stmt.at span (.tryBlock isGroup body handlers orelse finalbody)).IsTimed L loop := by
  intro current fresh _ harranged hlined
  obtain ⟨bodyEnd, hbodyIn, hmore⟩ := arranged_append.1 harranged
  obtain ⟨handlersEnd, hhandlersIn, hmore⟩ := arranged_append.1 hmore
  obtain ⟨orelseEnd, horelseIn, hfinalIn⟩ := arranged_append.1 hmore
  rw [layOut_tryBlock span isGroup handlers orelse finalbody rfl rfl] at hlined ⊢
  simp only [lined_append, lined_opens, lined_passes, next_append, next_opens, next_passes, and_true] at hlined
  obtain ⟨⟨⟨⟨⟨hstart, hlb⟩, hafter⟩, hlh⟩, hlo⟩, hlf⟩ := hlined
  have hfirst : ∀ p ∈ allPieces body, L fresh ≤ p.span.firstLine := hstart ▸ startLine_le hbodyIn _
  obtain ⟨htime, hlast⟩ := hfinal _ _ _ _ hfinalIn hlf
  refine ⟨?_, ?_⟩
  · simp only [inTime_append, inTime_opens, inTime_passes, true_and, and_true, hbody.inTime hbodyIn hlb hfirst,
      hhandlers _ _ _ _ _ _ hhandlersIn hlh, elsePart_inTime _ _ _ _ _ horelse horelseIn hlo, htime, hafter,
      Stmt.leading, Stmt.FinalsLate, List.not_mem_nil, false_imp_iff, implies_true, and_assoc]
  · -- the `finally` part ends in the block where it begins, or in one that opens later
    split at hlast
    · exact Int.le_of_eq ((congrArg L hlast).trans hafter)
    · exact hlast

theorem timed_places (s : Stmt) : Timed L current (places current s, current) [s] true True hi :=
  ⟨by simp, rfl⟩

/-- A jump opens a block on its line. -/
theorem timed_jump (target : BlockId) (kind : TransferKind) {span : Span} (hle : span.start ≤ span.stop)
    (hlined : (passes current target kind ++ opens .body span.firstLine).Lined fresh L) :
    Timed L current (passes current target kind ++ opens .body span.firstLine, fresh) [] false True
      span.stop := by
  simp only [lined_append, lined_passes, lined_opens, next_passes, true_and] at hlined
  exact ⟨by simp, Int.le_trans (Int.le_of_eq hlined) (Position.line_le hle)⟩

/-- **Parts one after the other are laid out in time.** If the first one ends in another block,
this block opens in time for the next one. -/
theorem Timed.append {f g : Fragment} {middle last : BlockId} {leading leading' : List Stmt}
    {stays stays' : Bool} {late late' : Prop} (hf : Timed L current (f, middle) leading stays late mid)
    (hg : Timed L middle (g, last) leading' stays' late' hi) (hmid : mid ≤ hi)
    (hleading : ∀ p ∈ leading', mid.line ≤ p.span.firstLine) :
    Timed L current (f ++ g, last) (leading ++ if stays then leading' else []) (stays && stays')
      (late ∧ late') hi := by
  obtain ⟨hftime, hmiddle⟩ := hf
  obtain ⟨hgtime, hlast⟩ := hg
  dsimp only at hftime hgtime hmiddle hlast
  cases stays with
  | true =>
    obtain rfl : middle = current := hmiddle
    refine ⟨?_, by simpa using hlast⟩
    simp only [inTime_append, hftime, hgtime, if_true, List.mem_append, or_imp, forall_and]
    exact and_and_and_comm
  | false =>
    have hopened : L middle ≤ mid.line := hmiddle
    have hnext : ∀ p ∈ leading', L middle ≤ p.span.firstLine := fun p hp =>
      Int.le_trans hopened (hleading p hp)
    refine ⟨?_, ?_⟩
    · simp only [inTime_append, hftime, hgtime, and_iff_right hnext, Bool.false_eq_true, if_false,
        List.append_nil, and_assoc]
    · cases stays' with
      | true =>
        obtain rfl : last = middle := hlast
        exact Int.le_trans hopened (Position.line_le hmid)
      | false => exact hlast

mutual

/-- **A statement is laid out in time just when its `finally` parts come late.** -/
theorem Code.Stmt.isTimed (L : BlockId → Int) (loop : Option Loop) : ∀ s : Stmt, s.IsTimed L loop
  | .at span form => by
    cases form with
    | ifElse test body orelse =>
      exact timed_ifElse span test (allTimed L loop body) (allTimed L loop orelse)
    | whileLoop test body orelse =>
      exact timed_while span test (fun inner => allTimed L (some inner) body) (allTimed L loop orelse)
    | forLoop isAsync target iter body orelse =>
      exact timed_for span isAsync target iter (fun inner => allTimed L (some inner) body)
        (allTimed L loop orelse)
    | withItems isAsync items body => exact timed_with span isAsync items (allTimed L loop body)
    | tryBlock isGroup body handlers orelse finalbody =>
      exact timed_try span isGroup (allTimed L loop body) (handlersTimed L loop handlers)
        (allTimed L loop orelse) (allTimed L loop finalbody)
    | matchCases subject cases => exact timed_match span subject (casesTimed L loop cases)
    | ret value =>
      intro current fresh hle _ hlined
      simp only [layOut, lined_append, lined_places, lined_turns, lined_returnsFrom, lined_opens, next_append,
        next_places, next_turns, next_returnsFrom, true_and] at hlined
      refine ⟨by simp [layOut, Stmt.leading, Stmt.FinalsLate], ?_⟩
      exact Int.le_trans (Int.le_of_eq hlined) (Position.line_le hle)
    | breakLoop =>
      intro current fresh hle _ hlined
      cases loop with
      | none => exact ⟨by simp [layOut, Stmt.leading, Stmt.FinalsLate], rfl⟩
      | some l => exact timed_jump l.after .breakOut hle hlined
    | continueLoop =>
      intro current fresh hle _ hlined
      cases loop with
      | none => exact ⟨by simp [layOut, Stmt.leading, Stmt.FinalsLate], rfl⟩
      | some l => exact timed_jump l.guard .continueLoop hle hlined
    | _ => exact fun _ _ _ _ _ => timed_places _

theorem allTimed (L : BlockId → Int) (loop : Option Loop) : ∀ body : List Stmt, AllTimed L loop body
  | [] => fun _ _ _ _ _ _ => ⟨by simp [layOutAll, allLeading, allFinalsLate], rfl⟩
  | s :: rest => by
    intro current fresh lo hi harranged hlined
    obtain ⟨hlo, hs, hinside, hrestIn⟩ := arranged_cons.1 harranged
    simp only [layOutAll, lined_append] at hlined ⊢
    have hrest := allTimed L loop rest _ _ _ _ hrestIn hlined.2
    refine (s.isTimed L loop current fresh hs hinside hlined.1).append hrest (hrestIn.le widening_le) ?_
    exact fun p hp => firstLine_of_arranged hrestIn p (allLeading_subset _ rest hp)

theorem handlersTimed (L : BlockId → Int) (loop : Option Loop) :
    ∀ handlers : List Handler, HandlersTimed L loop handlers
  | [] => handlersTimed_nil
  | .at span type name body :: rest =>
    handlersTimed_cons span type name (allTimed L loop body) (handlersTimed L loop rest)

theorem casesTimed (L : BlockId → Int) (loop : Option Loop) : ∀ cases : List Case, CasesTimed L loop cases
  | [] => casesTimed_nil
  | .of pattern guard body :: rest =>
    casesTimed_cons pattern guard (allTimed L loop body) (casesTimed L loop rest)

end

/-! ## Lines of a graph -/

/-- The lines on which the blocks of a whole layout open. -/
def Fragment.lineOf (f : Fragment) (i : BlockId) : Int := (f.opened[i.toNat]?.map (·.line)).getD 0

theorem Fragment.lined_lineOf (f : Fragment) : f.Lined 0 f.lineOf := by
  rintro i o ⟨k, hk, rfl⟩
  rw [Int.zero_add, lineOf, Int.toNat_natCast, hk]
  rfl

theorem Fragment.le_lastLineOf {s : Stmt} : ∀ {statements : List Stmt} (line : Int), s ∈ statements →
    s.span.lastLine ≤ lastLineOf statements line := by
  have hmore : ∀ (statements : List Stmt) (line : Int), line ≤ lastLineOf statements line := by
    intro statements
    induction statements with
    | nil => exact fun line => Int.le_refl line
    | cons t rest ih => exact fun line => Int.le_trans (Int.le_max_left ..) (ih _)
  intro statements
  induction statements with
  | nil => exact fun line hs => nomatch hs
  | cons t rest ih =>
    intro line hs
    rcases List.mem_cons.1 hs with rfl | hs
    · exact Int.le_trans (Int.le_max_right ..) (hmore rest _)
    · exact ih _ hs

/-- No block of a layout starts behind a statement that it holds, just when everything is placed
in time. -/
theorem Fragment.inTime_iff {F : Fragment} (name : String) (last : BlockId)
    (hin : ∀ p ∈ F.placed, 0 ≤ p.1 ∧ p.1 < F.next 0) :
    F.InTime F.lineOf ↔ ∀ b ∈ (F.toGraph name last).blocks, ∀ s, some s ∈ b.statements →
      b.firstLine ≤ s.span.firstLine := by
  constructor
  · intro h b hb s hs
    obtain ⟨i, o, hi, rfl⟩ := mem_blocks.1 hb
    obtain ⟨p, hp, rfl⟩ := List.mem_map.1 ((List.mem_map_of_injective fun _ _ => Option.some.inj).1 hs)
    obtain ⟨hp, hid⟩ := List.mem_filter.1 hp
    have hline : F.lineOf i = o.line := F.lined_lineOf i o ⟨i, hi, (Int.zero_add _).symm⟩
    have htime := h p hp
    rw [of_decide_eq_true hid, hline] at htime
    exact htime
  · intro h p hp
    obtain ⟨b, hb, hid⟩ := exists_block name last (hin p hp)
    obtain ⟨i, o, hi, rfl⟩ := mem_blocks.1 hb
    have hid : (i : BlockId) = p.1 := hid
    have hline : F.lineOf i = o.line := F.lined_lineOf i o ⟨i, hi, (Int.zero_add _).symm⟩
    have hs : p.2 ∈ F.statementsOf i :=
      List.mem_map.2 ⟨p, List.mem_filter.2 ⟨hp, decide_eq_true hid.symm⟩, rfl⟩
    rw [← hid, hline]
    exact h _ hb p.2 (List.mem_map_of_mem hs)

/-- How the lines of blocks and of the statements in them relate in the graph of a body. -/
structure Graph.MeasuresLines (g : Graph) (body : List Stmt) : Prop where
  /-- No statement ends behind the last line of its block. -/
  ends : ∀ b ∈ g.blocks, ∀ s, some s ∈ b.statements → s.span.lastLine ≤ b.lastLine
  /-- No statement starts in front of the first line of its block just when the `finally` parts
  come late. -/
  starts_iff : (∀ b ∈ g.blocks, ∀ s, some s ∈ b.statements → b.firstLine ≤ s.span.firstLine) ↔
    allFinalsLate false body

theorem Graph.ofBody_measuresLines (name : String) {line : Int} {bindings body : List Stmt} {lo hi : Position}
    (h : Arranged (· ≤ ·) lo (body.map .stmt) hi) (hbindings : ∀ s ∈ bindings, line ≤ s.span.firstLine)
    (hbody : ∀ p ∈ allPieces body, line ≤ p.span.firstLine) :
    (Graph.ofBody name line bindings body).MeasuresLines body := by
  cases hf : layOutAll none 0 1 body with
  | mk f last =>
    have hlies := hf ▸ layOutAll_lies none body 0 1 (by decide)
    rw [Graph.ofBody_eq name line bindings hf]
    generalize hF : (opens .entry line).placing 0 bindings ++ f = F
    have hin : ∀ p ∈ F.placed, 0 ≤ p.1 ∧ p.1 < F.next 0 := by
      subst hF
      exact fun p hp => hlies.placed_inside line bindings hp
    refine ⟨fun b hb s hs => ?_, (Fragment.inTime_iff name last hin).symm.trans ?_⟩
    · obtain ⟨i, o, -, rfl⟩ := mem_blocks.1 hb
      exact le_lastLineOf o.line ((List.mem_map_of_injective fun _ _ => Option.some.inj).1 hs)
    · have hlined := F.lined_lineOf
      generalize F.lineOf = L at hlined ⊢
      subst hF
      simp only [lined_append, lined_placing, lined_opens, next_placing, next_opens] at hlined
      obtain ⟨hentry, hlf⟩ := hlined
      have hbody : ∀ p ∈ allPieces body, L 0 ≤ p.span.firstLine := hentry ▸ hbody
      have hlaid : (layOutAll none 0 1 body).1.Lined 1 L := by
        rw [hf]
        exact hlf
      have htime := (allTimed L none body).inTime h hlaid hbody
      rw [hf] at htime
      simp only [inTime_append, inTime_placing, inTime_opens, true_and]
      rw [and_iff_right (hentry ▸ hbindings)]
      exact htime

/-- **The lines of a block cover its statements, but for `finally` parts.** A body has parts
with spans in the order of the source, each inside of the part it belongs to. In the graph of a
module, and in that of a function with its parameters, no statement ends behind the last line of
its block; and every block starts no later than the statements it holds just when no `finally`
part places a statement in the block where the part begins that starts in front of the last line
of its `try` statement. -/
theorem Graph.lines_cover_iff (body : List Stmt) :
    (∀ lo hi : Position, Arranged (· ≤ ·) lo (body.map .stmt) hi →
      (Graph.ofModule ⟨body⟩).MeasuresLines body) ∧
    ∀ (span : Span) (isAsync : Bool) (name : String) (ps : Parameters) (decorators : List Expr)
      (returns : Option Expr),
      Arranged (· ≤ ·) span.start (ps.inOrder.map (fun p => .header p.span) ++ body.map .stmt) span.stop →
      ∃ g, Graph.ofFunction? (.at span (.function isAsync name ps body decorators returns)) = some g ∧
        g.MeasuresLines body := by
  refine ⟨fun lo hi h => ?_, fun span isAsync name ps decorators returns h => ?_⟩
  · exact Graph.ofBody_measuresLines "<module>" h (fun s hs => nomatch hs) (startLine_le h 1)
  · obtain ⟨mid, hps, hbody⟩ := arranged_append.1 h
    refine ⟨_, rfl, Graph.ofBody_measuresLines name hbody ?_ ?_⟩
    · have hbindings : (ps.inOrder.map .parameter).map Origin.piece = ps.inOrder.map parameterBinding := by
        rw [List.map_map]
        rfl
      rw [← hbindings]
      exact (settled_parameters _ hps).line_le
    · exact firstLine_of_arranged (hbody.widen (hps.le widening_le))

/-- A `finally` part on the last line of its statement:

    try:
        a
    finally:
        b
-/
def Code.Stmt.oneLineFinally : List Stmt :=
  let read (line : Int) (id : String) : Stmt :=
    .at ⟨line, 8, line, 9⟩ (.expr (.at ⟨line, 8, line, 9⟩ (.name id)))
  [.at ⟨2, 4, 5, 9⟩ (.tryBlock false [read 3 "a"] [] [] [read 5 "b"])]

/-- The hypotheses of `lines_cover_iff` hold of this body, at module level and in a function with
a parameter, and so do both sides of the equivalence. -/
theorem Graph.oneLineFinally_lines_cover :
    let body := Stmt.oneLineFinally
    let ps : Parameters := .of [] [.at ⟨1, 6, 1, 7⟩ "p" none none] none [] none
    (Arranged (· ≤ ·) Position.first (body.map .stmt) ⟨5, 9⟩ ∧ allFinalsLate false body ∧
      ∀ b ∈ (Graph.ofModule ⟨body⟩).blocks, ∀ s, some s ∈ b.statements →
        b.firstLine ≤ s.span.firstLine ∧ s.span.lastLine ≤ b.lastLine) ∧
    Arranged (· ≤ ·) ⟨1, 0⟩ (ps.inOrder.map (fun p => .header p.span) ++ body.map .stmt) ⟨5, 9⟩ ∧
    ∃ g, Graph.ofFunction? (.at ⟨1, 0, 5, 9⟩ (.function false "f" ps body [] none)) = some g ∧
      ∀ b ∈ g.blocks, ∀ s, some s ∈ b.statements →
        b.firstLine ≤ s.span.firstLine ∧ s.span.lastLine ≤ b.lastLine := by
  intro body ps
  have hmodule : Arranged (· ≤ ·) Position.first (body.map .stmt) ⟨5, 9⟩ := by
    simp [body, Stmt.oneLineFinally, arranged_cons, arranged_nil, Part.parts, Part.span, Span.start, Span.stop,
      Position.le_iff, Position.first]
  have hfunction : Arranged (· ≤ ·) ⟨1, 0⟩
      (ps.inOrder.map (fun p => .header p.span) ++ body.map .stmt) ⟨5, 9⟩ := by
    simp [body, ps, Stmt.oneLineFinally, Parameters.inOrder, Parameter.span, arranged_cons, arranged_nil,
      Part.parts, Part.span, Span.start, Span.stop, Position.le_iff]
  have hlate : allFinalsLate false body := by
    simp [body, Stmt.oneLineFinally, allFinalsLate, Stmt.FinalsLate, handlersFinalsLate, allLeading,
      Stmt.leading]
  obtain ⟨hends, hstarts⟩ := (Graph.lines_cover_iff body).1 _ _ hmodule
  obtain ⟨g, hg, hgends, hgstarts⟩ :=
    (Graph.lines_cover_iff body).2 ⟨1, 0, 5, 9⟩ false "f" ps [] none hfunction
  exact ⟨⟨hmodule, hlate, fun b hb s hs => ⟨hstarts.2 hlate b hb s hs, hends b hb s hs⟩⟩, hfunction,
    g, hg, fun b hb s hs => ⟨hgstarts.2 hlate b hb s hs, hgends b hb s hs⟩⟩

/-- A `finally` part that starts in front of the last line of its statement:

    try:
        a
    finally:
        b
        c
-/
def Code.Module.twoLineFinally : Module :=
  let read (line : Int) (id : String) : Stmt :=
    .at ⟨line, 4, line, 5⟩ (.expr (.at ⟨line, 4, line, 5⟩ (.name id)))
  { body := [.at ⟨1, 0, 5, 5⟩ (.tryBlock false [read 2 "a"] [] [] [read 4 "b", read 5 "c"])] }

/-- **A block that starts late.** The block behind the statement opens on line 5 and holds what
is read on line 4. -/
theorem Graph.twoLineFinally_starts_late :
    Arranged (· ≤ ·) Position.first (Module.twoLineFinally.body.map .stmt) ⟨5, 5⟩ ∧
      ∃ b ∈ (Graph.ofModule .twoLineFinally).blocks, ∃ s, some s ∈ b.statements ∧
        ¬ b.firstLine ≤ s.span.firstLine := by
  refine ⟨?_, (Graph.ofModule .twoLineFinally).blocks.get ⟨2, by decide +kernel⟩, List.get_mem _ _,
    .at ⟨4, 4, 4, 5⟩ (.expr (.at ⟨4, 4, 4, 5⟩ (.name "b"))), List.mem_cons_self .., ?_⟩
  · simp [Module.twoLineFinally, arranged_cons, arranged_nil, Part.parts, Part.span, Span.start, Span.stop,
      Position.le_iff, Position.first]
  · decide +kernel

end Reaching
