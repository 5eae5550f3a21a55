/-
The order in which control goes through the blocks of a laid out body.

Where control does not turn back to the header of a loop it advances, and
the blocks of a body stand in an order that it follows. This is not the order in which they
open: the block behind a statement opens before its parts or between them, and it comes
behind all of them. The order is put together as the layout is (`Fragment.Follows`): the parts
of a statement one after the other, and the block behind it at the end. A jump out of a
part leads to the exit of its loop, which stands behind the whole of the loop.
-/
import Mathlib.Logic.Relation
import Reaching.Proofs.Region

namespace Reaching

open Code Fragment

/-! ## Pairs in a list -/

/-- One item of a list stands in front of another. -/
def Before {α : Type} (items : List α) (a b : α) : Prop := [a, b].Sublist items

section
variable {α : Type} {items rest : List α} {a b c : α}

@[simp] theorem before_nil : ¬ Before ([] : List α) a b := by simp [Before]

@[simp] theorem before_cons : Before (c :: rest) a b ↔ (a = c ∧ b ∈ rest) ∨ Before rest a b := by
  simp only [Before, List.sublist_cons_iff, List.cons.injEq]
  constructor
  · rintro (h | ⟨r, ⟨rfl, rfl⟩, h⟩)
    · exact .inr h
    · exact .inl ⟨rfl, List.singleton_sublist.1 h⟩
  · rintro (⟨rfl, h⟩ | h)
    · exact .inr ⟨[b], ⟨rfl, rfl⟩, List.singleton_sublist.2 h⟩
    · exact .inl h

@[simp] theorem before_append :
    Before (items ++ rest) a b ↔ Before items a b ∨ (a ∈ items ∧ b ∈ rest) ∨ Before rest a b := by
  induction items with
  | nil => simp
  | cons c items ih =>
    simp only [List.cons_append, before_cons, ih, List.mem_append, List.mem_cons]
    grind

/-- What stands in front in a list without repetition has the smaller place. -/
theorem Before.idxOf_lt [BEq α] [LawfulBEq α] (hnodup : items.Nodup) (h : Before items a b) :
    items.idxOf a < items.idxOf b := by
  have hplaces : items.Pairwise fun x y => items.idxOf x < items.idxOf y := by
    refine List.pairwise_iff_getElem.2 fun i j hi hj hij => ?_
    rwa [hnodup.idxOf_getElem i hi, hnodup.idxOf_getElem j hj]
  simpa using hplaces.sublist h

end

/-! ## How control advances -/

/-- Whether control turns back to the header of a loop. -/
def TransferKind.turnsBack : TransferKind → Bool
  | .backEdge => true
  | .continueLoop => true
  | _ => false

namespace Fragment

/-- Control passes from one block to another: it turns back to the header of a loop, or it
does not. -/
def Moves (f : Fragment) (back : Bool) (a b : BlockId) : Prop :=
  ∃ t ∈ f.transfers, t.kind.turnsBack = back ∧ t.source = a ∧ t.target = b

section
variable {f g : Fragment} {back : Bool} {a b c d : BlockId}

@[simp] theorem moves_append : (f ++ g).Moves back a b ↔ f.Moves back a b ∨ g.Moves back a b := by
  show (∃ t ∈ f.transfers ++ g.transfers, _) ↔ _
  simp only [List.mem_append, or_and_right, exists_or, Moves]

@[simp] theorem moves_passes {kind : TransferKind} {text : Option String} :
    (passes a b kind text).Moves back c d ↔ kind.turnsBack = back ∧ c = a ∧ d = b := by
  simp only [Moves, passes, List.mem_singleton, exists_eq_left, @eq_comm _ a c, @eq_comm _ b d]

@[simp] theorem moves_empty : ¬ Fragment.Moves {} back a b := by simp [Moves]

@[simp] theorem moves_opens {kind : BlockKind} {line : Int} : ¬ (opens kind line).Moves back a b := by
  simp [Moves, opens]

@[simp] theorem moves_places {s : Stmt} : ¬ (places c s).Moves back a b := by simp [Moves, places]

@[simp] theorem moves_turns {kind : BlockKind} : ¬ (turns c kind).Moves back a b := by
  simp [Moves, turns]

@[simp] theorem moves_returnsFrom : ¬ (returnsFrom c).Moves back a b := by simp [Moves, returnsFrom]

@[simp] theorem moves_decides : ¬ decides.Moves back a b := by simp [Moves, decides]

@[simp] theorem moves_placing {statements : List Stmt} :
    (f.placing c statements).Moves back a b ↔ f.Moves back a b := by
  simp only [Moves, (f.placing_keeps c statements).2.1]

end

/-- Control advances through the blocks of a fragment in an order: from blocks that stand in
front of them and from one of them to a later one, or else to one of the exits. -/
structure Follows (f : Fragment) (front : List BlockId) (exits : BlockId → Prop) (fresh : BlockId)
    (order : List BlockId) : Prop where
  nodup : order.Nodup
  mem : ∀ a, a ∈ order ↔ fresh ≤ a ∧ a < f.next fresh
  onward : ∀ a b, f.Moves false a b →
    (a ∈ front ∧ b ∈ order) ∨ Before order a b ∨ ((a ∈ front ∨ a ∈ order) ∧ exits b)

theorem Follows.of {f : Fragment} {front order : List BlockId} {exits : BlockId → Prop} {fresh n : BlockId}
    (hnext : f.next fresh = n) (hnodup : order.Nodup) (hmem : ∀ a, a ∈ order ↔ fresh ≤ a ∧ a < n)
    (honward : ∀ a b, f.Moves false a b →
      (a ∈ front ∧ b ∈ order) ∨ Before order a b ∨ ((a ∈ front ∨ a ∈ order) ∧ exits b)) :
    f.Follows front exits fresh order := by
  subst hnext
  exact ⟨hnodup, hmem, honward⟩

end Fragment

/-- The block to which `break` passes control. -/
def Loop.Exit (loop : Option Loop) (b : BlockId) : Prop := ∃ l, loop = some l ∧ b = l.after

/-- Control advances through a part of a body, in some order of the blocks that it opens. -/
def Advancing (loop : Option Loop) (current fresh : BlockId) (f : Fragment) : Prop :=
  ∃ order, f.Follows [current] (Loop.Exit loop) fresh order

/-- Control advances through a list of statements, wherever it is laid out. -/
def AllAdvance (loop : Option Loop) (body : List Stmt) : Prop :=
  ∀ current fresh, current < fresh → Advancing loop current fresh (layOutAll loop current fresh body).1

variable {loop : Option Loop} {current fresh : BlockId}

/-- A body goes into a block that is there, and ends in this one or in one that it opens. -/
theorem AllAdvance.part {body : List Stmt} (h : AllAdvance loop body) {f : Fragment} {first last : BlockId}
    (hfirst : first < fresh) (hf : layOutAll loop first fresh body = (f, last)) :
    ∃ order, f.Follows [first] (Loop.Exit loop) fresh order ∧ (last = first ∨ last ∈ order) := by
  obtain ⟨order, hfollows⟩ := hf ▸ h first fresh hfirst
  refine ⟨order, hfollows, ?_⟩
  rw [hfollows.mem]
  exact (hf ▸ layOutAll_lies loop body first fresh hfirst).last

/-! ## Simple statements and jumps -/

/-- A part that opens no block and passes no control. -/
theorem advancing_still {f : Fragment} (hopened : f.opened = []) (h : ∀ a b, ¬ f.Moves false a b) :
    Advancing loop current fresh f := by
  exact ⟨[], .of (n := fresh) (by simp [next, hopened]) .nil
    (fun a => iff_of_false List.not_mem_nil (by lia)) fun a b hab => absurd hab (h a b)⟩

theorem advancing_ret (span : Span) (value : Option Expr) :
    Advancing loop current fresh (layOut loop current fresh (.at span (.ret value))).1 := by
  refine ⟨[fresh], .of (n := fresh + 1) (by simp [layOut, next_append]) (List.nodup_singleton _)
    (fun a => ?_) fun a b hab => ?_⟩
  · simp
    lia
  · simp [layOut] at hab

theorem advancing_jump {target : BlockId} {kind : TransferKind}
    (htarget : kind.turnsBack = false → Loop.Exit loop target) (line : Int) :
    Advancing loop current fresh (passes current target kind ++ opens .body line) := by
  refine ⟨[fresh], .of (n := fresh + 1) (by simp [next_append]) (List.nodup_singleton _)
    (fun a => ?_) fun a b hab => ?_⟩
  · simp
    lia
  · simp at hab
    obtain ⟨hkind, rfl, rfl⟩ := hab
    exact .inr (.inr ⟨.inl (List.mem_singleton_self _), htarget hkind⟩)

/-! ## Statements with parts -/

theorem elsePart_advances (before after fresh : BlockId) (kind : TransferKind) (text : Option String)
    {orelse : List Stmt} (horelse : AllAdvance loop orelse) :
    ∃ order, (elsePart loop before after fresh kind text orelse).Follows [before]
      (fun b => Loop.Exit loop b ∨ b = after) fresh order := by
  cases orelse with
  | nil =>
    refine ⟨[], .of (next_passes ..) .nil (fun a => iff_of_false List.not_mem_nil (by lia))
      fun a b hab => .inr (.inr ?_)⟩
    obtain ⟨-, rfl, rfl⟩ := moves_passes.1 hab
    exact ⟨.inl (List.mem_singleton_self _), .inr rfl⟩
  | cons s rest =>
    cases ho : layOutAll loop fresh (fresh + 1) (s :: rest) with
    | mk o last =>
      obtain ⟨order, ⟨hnodup, hmem, honward⟩, hlast⟩ := horelse.part (by lia) ho
      have hon := o.le_next (fresh + 1)
      simp only [elsePart, ho]
      refine ⟨fresh :: order, .of (n := o.next (fresh + 1)) (by simp [next_append]) ?_ (fun a => ?_)
        fun a b hab => ?_⟩
      · exact List.nodup_cons.2 ⟨fun h => by have := (hmem fresh).1 h; lia, hnodup⟩
      · rw [List.mem_cons, hmem]
        lia
      · simp at hab honward ⊢
        grind

theorem advancing_ifElse (span : Span) (test : Expr) {body orelse : List Stmt}
    (hbody : AllAdvance loop body) (horelse : AllAdvance loop orelse) :
    Advancing loop current fresh (layOut loop current fresh (.at span (.ifElse test body orelse))).1 := by
  cases hb : layOutAll loop fresh (fresh + 2) body with
  | mk b bodyEnd =>
    obtain ⟨first, ⟨hnodup, hmem, honward⟩, hlast⟩ := hbody.part (by lia) hb
    have hbn := b.le_next (fresh + 2)
    rw [layOut_ifElse span test orelse hb]
    obtain ⟨second, honodup, homem, hoonward⟩ := elsePart_advances current (fresh + 1) (b.next (fresh + 2))
      .whenFalse (some (negated (conditionText test))) horelse
    generalize elsePart loop current (fresh + 1) (b.next (fresh + 2)) .whenFalse
      (some (negated (conditionText test))) orelse = o at *
    have hon := o.le_next (b.next (fresh + 2))
    refine ⟨fresh :: (first ++ second ++ [fresh + 1]), .of (n := o.next (b.next (fresh + 2)))
      (by simp [next_append, Int.add_assoc]) ?_ (fun a => ?_) fun a c hac => ?_⟩
    · simp [List.nodup_append, hnodup, honodup, hmem, homem]
      grind
    · simp [hmem, homem]
      lia
    · simp at hac honward hoonward ⊢
      grind

theorem advancing_loop (header : Stmt) (links : LoopLinks) (span : Span) (bodyLine : Int)
    {body orelse : List Stmt} (hbody : ∀ inner, AllAdvance (some inner) body)
    (horelse : AllAdvance loop orelse) :
    Advancing loop current fresh
      (layOutLoop header links span bodyLine (orelse.head?.map (·.span.firstLine))
        (fun inner c f => layOutAll (some inner) c f body) (fun _ c f => layOutAll loop c f orelse)
        current fresh).1 := by
  cases hb : layOutAll (some ⟨fresh, fresh + 1⟩) (fresh + 2) (fresh + 3) body with
  | mk b bodyEnd =>
    obtain ⟨first, ⟨hnodup, hmem, honward⟩, hlast⟩ := (hbody ⟨fresh, fresh + 1⟩).part (by lia) hb
    have hbn := b.le_next (fresh + 3)
    -- a jump out of the body leads to the block behind the loop
    have hexit : ∀ a, Loop.Exit (some ⟨fresh, fresh + 1⟩) a ↔ a = fresh + 1 := by simp [Loop.Exit]
    rw [layOutLoop_eq header links span bodyLine orelse hb]
    obtain ⟨second, honodup, homem, hoonward⟩ := elsePart_advances fresh (fresh + 1) (b.next (fresh + 3))
      links.leave links.leaveText horelse
    generalize elsePart loop fresh (fresh + 1) (b.next (fresh + 3)) links.leave links.leaveText
      orelse = o at *
    have hon := o.le_next (b.next (fresh + 3))
    refine ⟨fresh :: (fresh + 2) :: (first ++ second ++ [fresh + 1]), .of (n := o.next (b.next (fresh + 3)))
      (by simp [next_append, Int.add_assoc]) ?_ (fun a => ?_) fun a c hac => ?_⟩
    · simp [List.nodup_append, hnodup, honodup, hmem, homem]
      grind
    · simp [hmem, homem]
      lia
    · have hturn : TransferKind.backEdge.turnsBack = true := rfl
      simp [hexit, hturn] at hac honward hoonward ⊢
      grind

theorem advancing_with (h : current < fresh) (span : Span) (isAsync : Bool) (items : List WithItem)
    {body : List Stmt} (hbody : AllAdvance loop body) :
    Advancing loop current fresh (layOut loop current fresh (.at span (.withItems isAsync items body))).1 := by
  obtain ⟨order, hnodup, hmem, honward⟩ := hbody current fresh h
  rw [layOut_withItems span isAsync items rfl]
  exact ⟨order, .of (next_append ..) hnodup (by simpa using hmem) (by simpa using honward)⟩

/-- Control advances through handlers from the block before the statement and from the end
of its body. -/
def HandlersAdvance (loop : Option Loop) (handlers : List Handler) : Prop :=
  ∀ before bodyEnd after fresh, ∃ order,
    (layOutHandlers loop before bodyEnd after fresh handlers).Follows [before, bodyEnd]
      (fun b => Loop.Exit loop b ∨ b = after) fresh order

theorem handlersAdvance_nil : HandlersAdvance loop [] := fun _ _ _ _ =>
  ⟨[], .of (next_empty _) .nil (fun a => iff_of_false List.not_mem_nil (by lia))
    fun a b hab => absurd hab moves_empty⟩

theorem handlersAdvance_cons (span : Span) (type : Option Expr) (name : Option String)
    {body : List Stmt} {rest : List Handler} (hbody : AllAdvance loop body)
    (hrest : HandlersAdvance loop rest) : HandlersAdvance loop (.at span type name body :: rest) := by
  intro before bodyEnd after fresh
  cases hb : layOutAll loop fresh (fresh + 1) body with
  | mk b last =>
    obtain ⟨first, ⟨hnodup, hmem, honward⟩, hlast⟩ := hbody.part (by lia) hb
    have hbn := b.le_next (fresh + 1)
    rw [layOutHandlers_cons before bodyEnd after span type name rest hb]
    obtain ⟨others, hrnodup, hrmem, hronward⟩ := hrest before bodyEnd after (b.next (fresh + 1))
    generalize layOutHandlers loop before bodyEnd after (b.next (fresh + 1)) rest = r at *
    have hrn := r.le_next (b.next (fresh + 1))
    refine ⟨fresh :: (first ++ others), .of (n := r.next (b.next (fresh + 1))) (by simp [next_append])
      ?_ (fun a => ?_) fun a c hac => ?_⟩
    · simp [List.nodup_append, hnodup, hrnodup, hmem, hrmem]
      grind
    · simp [hmem, hrmem]
      lia
    · simp at hac honward hronward ⊢
      grind

/-- Control advances through cases from the block of the subject. -/
def CasesAdvance (loop : Option Loop) (cases : List Case) : Prop :=
  ∀ branch after fresh, ∃ order,
    (layOutCases loop branch after fresh cases).Follows [branch]
      (fun b => Loop.Exit loop b ∨ b = after) fresh order

theorem casesAdvance_nil : CasesAdvance loop [] := fun _ _ _ =>
  ⟨[], .of (next_empty _) .nil (fun a => iff_of_false List.not_mem_nil (by lia))
    fun a b hab => absurd hab moves_empty⟩

theorem casesAdvance_cons (p : Code.Pattern) (guard : Option Expr) {body : List Stmt} {rest : List Case}
    (hbody : AllAdvance loop body) (hrest : CasesAdvance loop rest) :
    CasesAdvance loop (.of p guard body :: rest) := by
  intro branch after fresh
  cases hb : layOutAll loop fresh (fresh + 1) body with
  | mk b last =>
    obtain ⟨first, ⟨hnodup, hmem, honward⟩, hlast⟩ := hbody.part (by lia) hb
    have hbn := b.le_next (fresh + 1)
    obtain ⟨others, hrnodup, hrmem, hronward⟩ := hrest branch after (b.next (fresh + 1))
    simp only [layOutCases, hb, next_append, next_decides, next_opens, next_passes]
    generalize layOutCases loop branch after (b.next (fresh + 1)) rest = r at *
    have hrn := r.le_next (b.next (fresh + 1))
    refine ⟨fresh :: (first ++ others), .of (n := r.next (b.next (fresh + 1))) (by simp [next_append])
      ?_ (fun a => ?_) fun a c hac => ?_⟩
    · simp [List.nodup_append, hnodup, hrnodup, hmem, hrmem]
      grind
    · simp [hmem, hrmem]
      lia
    · simp at hac honward hronward ⊢
      grind

theorem advancing_match (span : Span) (subject : Expr) {cases : List Case}
    (hcases : CasesAdvance loop cases) :
    Advancing loop current fresh (layOut loop current fresh (.at span (.matchCases subject cases))).1 := by
  obtain ⟨order, hnodup, hmem, honward⟩ := hcases current fresh (fresh + 1)
  simp only [layOut]
  generalize layOutCases loop current fresh (fresh + 1) cases = c at *
  have hcn := c.le_next (fresh + 1)
  refine ⟨order ++ [fresh], .of (n := c.next (fresh + 1)) (by simp [next_append]) ?_ (fun a => ?_)
    fun a b hab => ?_⟩
  · simp [List.nodup_append, hnodup, hmem]
    grind
  · simp [hmem]
    lia
  · simp at hab honward ⊢
    grind

theorem advancing_try (span : Span) (isGroup : Bool) {body : List Stmt} {handlers : List Handler}
    {orelse finalbody : List Stmt} (hbody : AllAdvance loop body)
    (hhandlers : HandlersAdvance loop handlers) (horelse : AllAdvance loop orelse)
    (hfinal : AllAdvance loop finalbody) :
    Advancing loop current fresh
      (layOut loop current fresh (.at span (.tryBlock isGroup body handlers orelse finalbody))).1 := by
  cases hb : layOutAll loop fresh (fresh + 1) body with
  | mk b bodyEnd =>
    obtain ⟨first, ⟨hnodup, hmem, honward⟩, hlast⟩ := hbody.part (by lia) hb
    have hbn := b.le_next (fresh + 1)
    generalize hafter : b.next (fresh + 1) = after at *
    rw [layOut_tryBlock span isGroup handlers orelse finalbody hb hafter]
    dsimp only
    obtain ⟨handled, hhnodup, hhmem, hhonward⟩ := hhandlers current bodyEnd after (after + 1)
    generalize layOutHandlers loop current bodyEnd after (after + 1) handlers = hs at *
    have hhn := hs.le_next (after + 1)
    obtain ⟨second, honodup, homem, hoonward⟩ := elsePart_advances bodyEnd after (hs.next (after + 1))
      .unconditional none horelse
    generalize elsePart loop bodyEnd after (hs.next (after + 1)) .unconditional none orelse = o at *
    have hon := o.le_next (hs.next (after + 1))
    cases hf : layOutAll loop after (o.next (hs.next (after + 1))) finalbody with
    | mk f finalEnd =>
      obtain ⟨final, ⟨hfnodup, hfmem, hfonward⟩, -⟩ := hfinal.part (by lia) hf
      have hfn := f.le_next (o.next (hs.next (after + 1)))
      dsimp only
      refine ⟨fresh :: (first ++ handled ++ second ++ after :: final),
        .of (n := f.next (o.next (hs.next (after + 1)))) (by simp [next_append, hafter]) ?_ (fun a => ?_)
        fun a c hac => ?_⟩
      · simp [List.nodup_append, hnodup, hhnodup, honodup, hfnodup, hmem, hhmem, homem, hfmem]
        grind
      · simp [hmem, hhmem, homem, hfmem]
        lia
      · simp at hac honward hhonward hoonward hfonward ⊢
        -- which of the parts control is in is all that matters from here on
        clear hmem hhmem homem hfmem
        rcases hac with (((hac | hac) | hac) | hac) | hac
        · simp [hac]
        · have := honward a c hac
          grind
        · have := hhonward a c hac
          grind
        · have := hoonward a c hac
          grind
        · have := hfonward a c hac
          grind

/-! ## Bodies -/

theorem allAdvance_nil : AllAdvance loop [] := fun _ _ _ =>
  advancing_still rfl fun _ _ => moves_empty

theorem allAdvance_cons {s : Stmt} {rest : List Stmt}
    (hs : ∀ current fresh, current < fresh →
      Advancing loop current fresh (layOut loop current fresh s).1)
    (hrest : AllAdvance loop rest) : AllAdvance loop (s :: rest) := by
  intro current fresh h
  cases hf : layOut loop current fresh s with
  | mk f mid =>
    have hlast := (hf ▸ layOut_lies loop s current fresh h).last
    obtain ⟨first, hnodup, hmem, honward⟩ := hf ▸ hs current fresh h
    have hfn := f.le_next fresh
    dsimp only at hlast hmem honward
    cases hg : layOutAll loop mid (f.next fresh) rest with
    | mk g last =>
      obtain ⟨second, ⟨hgnodup, hgmem, hgonward⟩, -⟩ := hrest.part (by lia) hg
      have hgn := g.le_next (f.next fresh)
      simp only [layOutAll, hf, hg]
      refine ⟨first ++ second, .of (n := g.next (f.next fresh)) (next_append ..) ?_ (fun a => ?_)
        fun a c hac => ?_⟩
      · simp [List.nodup_append, hnodup, hgnodup, hmem, hgmem]
        grind
      · simp [hmem, hgmem]
        lia
      · simp at hac honward hgonward ⊢
        grind

mutual

/-- **Control advances through a statement** where it is laid out, whatever its form. -/
theorem layOut_advances (loop : Option Loop) : ∀ (s : Stmt) (current fresh : BlockId),
    current < fresh → Advancing loop current fresh (layOut loop current fresh s).1
  | .at span form, current, fresh, h => by
    cases form with
    | ifElse test body orelse =>
      exact advancing_ifElse span test (layOutAll_advances loop body) (layOutAll_advances loop orelse)
    | whileLoop test body orelse =>
      simp only [layOut]
      exact advancing_loop _ _ span _ (fun inner => layOutAll_advances (some inner) body)
        (layOutAll_advances loop orelse)
    | forLoop isAsync target iter body orelse =>
      simp only [layOut]
      exact advancing_loop _ _ span _ (fun inner => layOutAll_advances (some inner) body)
        (layOutAll_advances loop orelse)
    | withItems isAsync items body => exact advancing_with h span isAsync items (layOutAll_advances loop body)
    | tryBlock isGroup body handlers orelse finalbody =>
      exact advancing_try span isGroup (layOutAll_advances loop body) (layOutHandlers_advance loop handlers)
        (layOutAll_advances loop orelse) (layOutAll_advances loop finalbody)
    | matchCases subject cases => exact advancing_match span subject (layOutCases_advance loop cases)
    | ret value => exact advancing_ret span value
    | breakLoop =>
      cases loop with
      | none => exact advancing_still rfl fun _ _ => moves_empty
      | some l => exact advancing_jump (fun _ => ⟨l, rfl, rfl⟩) span.firstLine
    | continueLoop =>
      cases loop with
      | none => exact advancing_still rfl fun _ _ => moves_empty
      | some l => exact advancing_jump (fun h => absurd h (by decide)) span.firstLine
    | _ => exact advancing_still rfl fun _ _ => moves_places

theorem layOutAll_advances (loop : Option Loop) : ∀ body : List Stmt, AllAdvance loop body
  | [] => allAdvance_nil
  | s :: rest => allAdvance_cons (layOut_advances loop s) (layOutAll_advances loop rest)

theorem layOutHandlers_advance (loop : Option Loop) : ∀ handlers : List Handler,
    HandlersAdvance loop handlers
  | [] => handlersAdvance_nil
  | .at span type name body :: rest =>
    handlersAdvance_cons span type name (layOutAll_advances loop body) (layOutHandlers_advance loop rest)

theorem layOutCases_advance (loop : Option Loop) : ∀ cases : List Case, CasesAdvance loop cases
  | [] => casesAdvance_nil
  | .of p guard body :: rest =>
    casesAdvance_cons p guard (layOutAll_advances loop body) (layOutCases_advance loop rest)

end

/-! ## Whole bodies -/

namespace Graph

/-- Control passes from one block to another, and does not turn back. -/
def Advances (g : Graph) (a b : BlockId) : Prop :=
  ∃ t ∈ g.transfers, t.kind.turnsBack = false ∧ t.source = a ∧ t.target = b

end Graph

/-- **Control that advances does not come back to a block.** -/
theorem Graph.ofBody_acyclic (name : String) (line : Int) (bindings body : List Stmt) (a : BlockId) :
    ¬ Relation.TransGen (Graph.ofBody name line bindings body).Advances a a := by
  cases hf : layOutAll none 0 1 body with
  | mk f last =>
    obtain ⟨order, ⟨hnodup, hmem, honward⟩, -⟩ := (layOutAll_advances none body).part (by decide) hf
    rw [Graph.ofBody_eq name line bindings hf]
    have hwhole : (0 :: order).Nodup := List.nodup_cons.2 ⟨fun h => by have := (hmem 0).1 h; lia, hnodup⟩
    have hstep : ∀ b c, (((opens .entry line).placing 0 bindings ++ f).toGraph name last).Advances b c →
        (0 :: order).idxOf b < (0 :: order).idxOf c := by
      intro b c hbc
      have hbc : f.Moves false b c := by
        have : ((opens .entry line).placing 0 bindings ++ f).Moves false b c := hbc
        simpa using this
      refine Before.idxOf_lt hwhole ?_
      rw [before_cons]
      rcases honward b c hbc with hfront | hbefore | ⟨-, l, hl, -⟩
      · exact .inl ⟨List.mem_singleton.1 hfront.1, hfront.2⟩
      · exact .inr hbefore
      · cases hl
    have hlater : ∀ b, Relation.TransGen (((opens .entry line).placing 0 bindings ++ f).toGraph name
        last).Advances a b → (0 :: order).idxOf a < (0 :: order).idxOf b := by
      intro b hab
      induction hab with
      | single hab => exact hstep _ _ hab
      | tail _ hbc ih => exact Nat.lt_trans ih (hstep _ _ hbc)
    exact fun hround => Nat.lt_irrefl _ (hlater a hround)

end Reaching
