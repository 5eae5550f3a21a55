/-
Which blocks a layout works on.

A statement is laid out in the current block and in the blocks that it opens;
blocks that opened before are not touched, and control passes to none of them but
the guard and the exit of the innermost loop (`Lies`). The block in which the
next statement goes is still open: control does not leave it yet. So the parts of
a layout do not interfere, and every transfer of a whole layout joins two of its
blocks (`Graph.ofBody_linked`).
-/
import Reaching.Proofs.Arrival
import Reaching.Proofs.Fragment

namespace Reaching

open Code Fragment

/-! ## Regions -/

/-- The blocks to which `break` and `continue` pass control. -/
def Loop.Ends (loop : Option Loop) (a : BlockId) : Prop :=
  ∃ l, loop = some l ∧ (a = l.guard ∨ a = l.after)

/-- A fragment touches only the blocks that it opens and some others, and enters
only the blocks that it opens and some others. -/
structure Fragment.Within (f : Fragment) (outer entered : BlockId → Prop) (fresh : BlockId) :
    Prop where
  touches : ∀ a, f.Touches a → outer a ∨ (fresh ≤ a ∧ a < f.next fresh)
  enters : ∀ a, f.Enters a → entered a ∨ (fresh ≤ a ∧ a < f.next fresh)

/-- A part of a body lies in the current block and in the blocks that it opens,
and leaves its last block open. -/
structure Lies (loop : Option Loop) (current fresh : BlockId) (laid : Laid) : Prop where
  within : laid.1.Within (· = current) (Loop.Ends loop) fresh
  last : laid.2 = current ∨ (fresh ≤ laid.2 ∧ laid.2 < laid.1.next fresh)
  isOpen : ¬ laid.1.Leaves laid.2

/-- A list of statements lies wherever it is laid out. -/
def AllLie (loop : Option Loop) (body : List Stmt) : Prop :=
  ∀ current fresh, current < fresh → Lies loop current fresh (layOutAll loop current fresh body)

variable {loop : Option Loop} {current fresh : BlockId}

theorem Fragment.Within.of {f : Fragment} {outer entered : BlockId → Prop} {n : BlockId}
    (hnext : f.next fresh = n) (htouches : ∀ a, f.Touches a → outer a ∨ (fresh ≤ a ∧ a < n))
    (henters : ∀ a, f.Enters a → entered a ∨ (fresh ≤ a ∧ a < n)) : f.Within outer entered fresh := by
  subst hnext
  exact ⟨htouches, henters⟩

theorem Lies.of {f : Fragment} {last n : BlockId} (hnext : f.next fresh = n)
    (htouches : ∀ a, f.Touches a → a = current ∨ (fresh ≤ a ∧ a < n))
    (henters : ∀ a, f.Enters a → Loop.Ends loop a ∨ (fresh ≤ a ∧ a < n))
    (hlast : last = current ∨ (fresh ≤ last ∧ last < n)) (hopen : ¬ f.Leaves last) :
    Lies loop current fresh (f, last) :=
  ⟨.of hnext htouches henters, hnext ▸ hlast, hopen⟩

/-! ## Simple statements and jumps -/

theorem lies_places (s : Stmt) : Lies loop current fresh (places current s, current) :=
  .of (next_places ..) (fun a ha => .inl (by simpa using ha)) (fun a ha => by simp at ha) (.inl rfl)
    (by simp)

theorem lies_nothing : Lies loop current fresh ({}, current) :=
  .of (next_empty _) (fun a ha => by simp at ha) (fun a ha => by simp at ha) (.inl rfl) (by simp)

theorem lies_ret (h : current < fresh) (span : Span) (value : Option Expr) :
    Lies loop current fresh (layOut loop current fresh (.at span (.ret value))) := by
  refine .of (n := fresh + 1) (by simp [next_append]) (fun a ha => .inl ?_) (fun a ha => ?_) ?_ ?_
  · simpa using ha
  · simp at ha
  · exact .inr ⟨by lia, by lia⟩
  · simp
    lia

/-- A jump passes control from the current block, and a block that nothing enters
opens. -/
theorem lies_jump (h : current < fresh) {target : BlockId} (htarget : Loop.Ends loop target)
    (kind : TransferKind) (line : Int) :
    Lies loop current fresh (passes current target kind ++ opens .body line, fresh) := by
  refine .of (n := fresh + 1) (by simp [next_append]) (fun a ha => .inl ?_) (fun a ha => .inl ?_) ?_ ?_
  · simpa using ha
  · simp at ha
    rwa [ha]
  · exact .inr ⟨by lia, by lia⟩
  · simp
    lia

/-! ## `else` parts -/

/-- The `else` part of a statement: control passes to it from a block, and from
its end to another. Where there is no such part, control passes on at once. -/
def elsePart (loop : Option Loop) (before after fresh : BlockId) (kind : TransferKind)
    (text : Option String) : List Stmt → Fragment
  | [] => passes before after kind text
  | s :: rest =>
    let (o, last) := layOutAll loop fresh (fresh + 1) (s :: rest)
    opens .body s.span.firstLine ++ passes before fresh kind text ++ o
      ++ passes last after .unconditional

theorem elsePart_within (before after fresh : BlockId) (kind : TransferKind) (text : Option String)
    {orelse : List Stmt} (horelse : AllLie loop orelse) :
    (elsePart loop before after fresh kind text orelse).Within (· = before)
      (fun a => Loop.Ends loop a ∨ a = after) fresh := by
  cases orelse with
  | nil =>
    refine .of (next_passes ..) (fun a ha => .inl ?_) (fun a ha => .inl (.inr ?_))
    · exact touches_passes.1 ha
    · exact enters_passes.1 ha
  | cons s rest =>
    cases ho : layOutAll loop fresh (fresh + 1) (s :: rest) with
    | mk o last =>
      obtain ⟨⟨hot, hoe⟩, hol, -⟩ := ho ▸ horelse fresh (fresh + 1) (by lia)
      have hon := o.le_next (fresh + 1)
      dsimp only at hot hoe hol
      simp only [elsePart, ho]
      refine .of (n := o.next (fresh + 1)) (by simp [next_append]) ?_ ?_
      · intro a ha
        simp at ha
        grind
      · intro a ha
        simp at ha
        grind

/-! ## Statements with parts -/

theorem layOut_ifElse (span : Span) (test : Expr) {body : List Stmt} (orelse : List Stmt)
    {b : Fragment} {bodyEnd : BlockId} (hb : layOutAll loop fresh (fresh + 2) body = (b, bodyEnd)) :
    layOut loop current fresh (.at span (.ifElse test body orelse)) =
      (decides ++ places current (testHeader test) ++ turns current .branch
          ++ opens .body (startLine body span.firstLine)
          ++ passes current fresh .whenTrue (some (conditionText test))
          ++ opens .body span.lastLine ++ b ++ passes bodyEnd (fresh + 1) .unconditional
          ++ elsePart loop current (fresh + 1) (b.next (fresh + 2)) .whenFalse
            (some (negated (conditionText test))) orelse, fresh + 1) := by
  cases orelse with
  | nil => simp only [layOut, hb, elsePart]
  | cons s rest =>
    simp only [layOut, hb, elsePart, next_append, next_decides, next_places, next_turns, next_opens,
      next_passes, Int.add_assoc, Int.reduceAdd, append_assoc]

theorem lies_ifElse (h : current < fresh) (span : Span) (test : Expr) {body orelse : List Stmt}
    (hbody : AllLie loop body) (horelse : AllLie loop orelse) :
    Lies loop current fresh (layOut loop current fresh (.at span (.ifElse test body orelse))) := by
  cases hb : layOutAll loop fresh (fresh + 2) body with
  | mk b bodyEnd =>
    obtain ⟨⟨hbt, hbe⟩, hbl, -⟩ := hb ▸ hbody fresh (fresh + 2) (by lia)
    have hbn := b.le_next (fresh + 2)
    dsimp only at hbt hbe hbl
    rw [layOut_ifElse span test orelse hb]
    obtain ⟨hot, hoe⟩ := elsePart_within current (fresh + 1) (b.next (fresh + 2)) .whenFalse
      (some (negated (conditionText test))) horelse
    generalize elsePart loop current (fresh + 1) (b.next (fresh + 2)) .whenFalse
      (some (negated (conditionText test))) orelse = o at hot hoe ⊢
    have hon := o.le_next (b.next (fresh + 2))
    refine .of (n := o.next (b.next (fresh + 2))) (by simp [next_append, Int.add_assoc])
      ?_ ?_ (by lia) ?_
    · intro a ha
      simp at ha
      grind
    · intro a ha
      simp at ha
      grind
    · simp
      grind

theorem layOutLoop_eq (header : Stmt) (links : LoopLinks) (span : Span) (bodyLine : Int)
    {body : List Stmt} (orelse : List Stmt) {b : Fragment} {bodyEnd : BlockId}
    (hb : layOutAll (some ⟨fresh, fresh + 1⟩) (fresh + 2) (fresh + 3) body = (b, bodyEnd)) :
    layOutLoop header links span bodyLine (orelse.head?.map (·.span.firstLine))
        (fun inner c f => layOutAll (some inner) c f body) (fun _ c f => layOutAll loop c f orelse)
        current fresh =
      (decides ++ opens .loopHeader span.firstLine ++ passes current fresh .unconditional
          ++ places fresh header ++ opens .body span.lastLine ++ opens .loopBody bodyLine
          ++ passes fresh (fresh + 2) links.enter links.enterText ++ b ++ passes bodyEnd fresh .backEdge
          ++ elsePart loop fresh (fresh + 1) (b.next (fresh + 3)) links.leave links.leaveText orelse,
        fresh + 1) := by
  cases orelse with
  | nil => simp only [layOutLoop, hb, elsePart, List.head?_nil, Option.map_none]
  | cons s rest =>
    simp only [layOutLoop, hb, elsePart, List.head?_cons, Option.map_some, next_append, next_decides,
      next_places, next_opens, next_passes, Int.add_assoc, Int.reduceAdd, append_assoc]

theorem lies_loop (h : current < fresh) (header : Stmt) (links : LoopLinks) (span : Span)
    (bodyLine : Int) {body orelse : List Stmt} (hbody : ∀ inner, AllLie (some inner) body)
    (horelse : AllLie loop orelse) :
    Lies loop current fresh
      (layOutLoop header links span bodyLine (orelse.head?.map (·.span.firstLine))
        (fun inner c f => layOutAll (some inner) c f body) (fun _ c f => layOutAll loop c f orelse)
        current fresh) := by
  cases hb : layOutAll (some ⟨fresh, fresh + 1⟩) (fresh + 2) (fresh + 3) body with
  | mk b bodyEnd =>
    obtain ⟨⟨hbt, hbe⟩, hbl, -⟩ := hb ▸ hbody ⟨fresh, fresh + 1⟩ (fresh + 2) (fresh + 3) (by lia)
    have hbn := b.le_next (fresh + 3)
    -- what leaves the body by a jump goes to the guard or to the exit of this loop
    have hends : ∀ a, Loop.Ends (some ⟨fresh, fresh + 1⟩) a → a = fresh ∨ a = fresh + 1 := by
      rintro a ⟨l, hl, ha⟩
      obtain rfl := Option.some.inj hl
      exact ha
    dsimp only at hbt hbe hbl
    rw [layOutLoop_eq header links span bodyLine orelse hb]
    obtain ⟨hot, hoe⟩ := elsePart_within fresh (fresh + 1) (b.next (fresh + 3)) links.leave
      links.leaveText horelse
    generalize elsePart loop fresh (fresh + 1) (b.next (fresh + 3)) links.leave links.leaveText
      orelse = o at hot hoe ⊢
    have hon := o.le_next (b.next (fresh + 3))
    refine .of (n := o.next (b.next (fresh + 3))) (by simp [next_append, Int.add_assoc])
      ?_ ?_ (by lia) ?_
    · intro a ha
      simp at ha
      grind
    · intro a ha
      simp at ha
      grind
    · simp
      grind

theorem layOut_withItems (span : Span) (isAsync : Bool) (items : List WithItem) {body : List Stmt}
    {b : Fragment} {bodyEnd : BlockId} (hb : layOutAll loop current fresh body = (b, bodyEnd)) :
    layOut loop current fresh (.at span (.withItems isAsync items body)) =
      (placing {} current (items.map fun i => bindingHeader i.target i.context) ++ b, bodyEnd) := by
  simp only [layOut, hb, placing, List.foldl_map]

/-- A part behind headers in the same block. -/
theorem Lies.placing {b : Fragment} {last : BlockId} (h : Lies loop current fresh (b, last))
    (headers : List Stmt) : Lies loop current fresh (placing {} current headers ++ b, last) := by
  obtain ⟨⟨hbt, hbe⟩, hbl, hbo⟩ := h
  dsimp only at hbt hbe hbl hbo
  refine .of (n := b.next fresh) (by simp [next_append]) ?_ ?_ hbl ?_
  · intro a ha
    rcases touches_append.1 ha with ha | ha
    · exact .inl ((touches_placing ha).resolve_right touches_empty)
    · exact hbt a ha
  · intro a ha
    simp at ha
    exact hbe a ha
  · simpa using hbo

theorem lies_with (h : current < fresh) (span : Span) (isAsync : Bool) (items : List WithItem)
    {body : List Stmt} (hbody : AllLie loop body) :
    Lies loop current fresh (layOut loop current fresh (.at span (.withItems isAsync items body))) := by
  rw [layOut_withItems span isAsync items rfl]
  exact (hbody current fresh h).placing _

/-- Handlers lie in the blocks that they open, with control from the block before
the statement and from the end of its body. -/
def HandlersLie (loop : Option Loop) (handlers : List Handler) : Prop :=
  ∀ before bodyEnd after fresh, before < fresh → bodyEnd < fresh →
    (layOutHandlers loop before bodyEnd after fresh handlers).Within
      (fun a => a = before ∨ a = bodyEnd) (fun a => Loop.Ends loop a ∨ a = after) fresh

theorem handlersLie_nil : HandlersLie loop [] := fun _ _ _ _ _ _ =>
  .of (next_empty _) (fun a ha => by simp [layOutHandlers] at ha)
    (fun a ha => by simp [layOutHandlers] at ha)

theorem layOutHandlers_cons (before bodyEnd after : BlockId) (span : Span) (type : Option Expr)
    (name : Option String) {body : List Stmt} (rest : List Handler) {b : Fragment} {last : BlockId}
    (hb : layOutAll loop fresh (fresh + 1) body = (b, last)) :
    layOutHandlers loop before bodyEnd after fresh (.at span type name body :: rest) =
      decides ++ opens .handler span.firstLine ++ passes before fresh .error (type.map conditionText)
        ++ passes bodyEnd fresh .error (type.map conditionText)
        ++ placing {} fresh (type.map (bindingHeader (name.map (handlerTarget span)))).toList
        ++ b ++ passes last after .unconditional
        ++ layOutHandlers loop before bodyEnd after (b.next (fresh + 1)) rest := by
  cases type with
  | none => simp [layOutHandlers, hb, next_append, placing]
  | some t =>
    simp [layOutHandlers, hb, next_append, placing]
    rfl

theorem handlersLie_cons (span : Span) (type : Option Expr) (name : Option String)
    {body : List Stmt} {rest : List Handler} (hbody : AllLie loop body)
    (hrest : HandlersLie loop rest) : HandlersLie loop (.at span type name body :: rest) := by
  intro before bodyEnd after fresh hbefore hend
  cases hb : layOutAll loop fresh (fresh + 1) body with
  | mk b last =>
    obtain ⟨⟨hbt, hbe⟩, hbl, -⟩ := hb ▸ hbody fresh (fresh + 1) (by lia)
    have hbn := b.le_next (fresh + 1)
    dsimp only at hbt hbe hbl
    obtain ⟨hrt, hre⟩ := hrest before bodyEnd after (b.next (fresh + 1)) (by lia) (by lia)
    rw [layOutHandlers_cons before bodyEnd after span type name rest hb]
    generalize layOutHandlers loop before bodyEnd after (b.next (fresh + 1)) rest = r at *
    have hrn := r.le_next (b.next (fresh + 1))
    refine .of (n := r.next (b.next (fresh + 1))) (by simp [next_append]) ?_ ?_
    · intro a ha
      have hheader (ht : (placing {} fresh
          (type.map (bindingHeader (name.map (handlerTarget span)))).toList).Touches a) : a = fresh :=
        (touches_placing ht).resolve_right touches_empty
      simp at ha
      grind
    · intro a ha
      simp at ha
      grind

/-- Cases lie in the blocks that they open, with control from the block of the
subject. -/
def CasesLie (loop : Option Loop) (cases : List Case) : Prop :=
  ∀ branch after fresh, branch < fresh →
    (layOutCases loop branch after fresh cases).Within (· = branch)
      (fun a => Loop.Ends loop a ∨ a = after) fresh

theorem casesLie_nil : CasesLie loop [] := fun _ _ _ _ =>
  .of (next_empty _) (fun a ha => by simp [layOutCases] at ha) (fun a ha => by simp [layOutCases] at ha)

theorem casesLie_cons (p : Code.Pattern) (guard : Option Expr) {body : List Stmt} {rest : List Case}
    (hbody : AllLie loop body) (hrest : CasesLie loop rest) :
    CasesLie loop (.of p guard body :: rest) := by
  intro branch after fresh hbranch
  cases hb : layOutAll loop fresh (fresh + 1) body with
  | mk b last =>
    obtain ⟨⟨hbt, hbe⟩, hbl, -⟩ := hb ▸ hbody fresh (fresh + 1) (by lia)
    have hbn := b.le_next (fresh + 1)
    dsimp only at hbt hbe hbl
    obtain ⟨hrt, hre⟩ := hrest branch after (b.next (fresh + 1)) (by lia)
    generalize hr : layOutCases loop branch after (b.next (fresh + 1)) rest = r at *
    have hrn := r.le_next (b.next (fresh + 1))
    simp only [layOutCases, hb, next_append, next_decides, next_opens, next_passes, hr]
    refine .of (n := r.next (b.next (fresh + 1))) (by simp [next_append]) ?_ ?_
    · intro a ha
      simp at ha
      grind
    · intro a ha
      simp at ha
      grind

theorem lies_match (h : current < fresh) (span : Span) (subject : Expr) {cases : List Case}
    (hcases : CasesLie loop cases) :
    Lies loop current fresh (layOut loop current fresh (.at span (.matchCases subject cases))) := by
  obtain ⟨hct, hce⟩ := hcases current fresh (fresh + 1) (by lia)
  generalize hc : layOutCases loop current fresh (fresh + 1) cases = c at *
  have hcn := c.le_next (fresh + 1)
  simp only [layOut, hc]
  refine .of (n := c.next (fresh + 1)) (by simp [next_append]) ?_ ?_ (by lia) ?_
  · intro a ha
    simp at ha
    grind
  · intro a ha
    simp at ha
    grind
  · simp
    grind

theorem layOut_tryBlock (span : Span) (isGroup : Bool) {body : List Stmt} (handlers : List Handler)
    (orelse finalbody : List Stmt) {b : Fragment} {bodyEnd after : BlockId}
    (hb : layOutAll loop fresh (fresh + 1) body = (b, bodyEnd)) (hafter : b.next (fresh + 1) = after) :
    layOut loop current fresh (.at span (.tryBlock isGroup body handlers orelse finalbody)) =
      let hs := layOutHandlers loop current bodyEnd after (after + 1) handlers
      let o := elsePart loop bodyEnd after (hs.next (after + 1)) .unconditional none orelse
      let (f, finalEnd) := layOutAll loop after (o.next (hs.next (after + 1))) finalbody
      (opens .body (startLine body span.firstLine) ++ passes current fresh .unconditional ++ b
        ++ opens .body span.lastLine ++ hs ++ o ++ f, finalEnd) := by
  cases orelse with
  | nil =>
    simp only [layOut, hb, elsePart, next_append, next_opens, next_passes, hafter]
  | cons s rest =>
    simp only [layOut, hb, elsePart, next_append, next_opens, next_passes, hafter, append_assoc]

theorem lies_try (h : current < fresh) (span : Span) (isGroup : Bool) {body : List Stmt}
    {handlers : List Handler} {orelse finalbody : List Stmt} (hbody : AllLie loop body)
    (hhandlers : HandlersLie loop handlers) (horelse : AllLie loop orelse)
    (hfinal : AllLie loop finalbody) :
    Lies loop current fresh
      (layOut loop current fresh (.at span (.tryBlock isGroup body handlers orelse finalbody))) := by
  cases hb : layOutAll loop fresh (fresh + 1) body with
  | mk b bodyEnd =>
    obtain ⟨⟨hbt, hbe⟩, hbl, -⟩ := hb ▸ hbody fresh (fresh + 1) (by lia)
    have hbn := b.le_next (fresh + 1)
    dsimp only at hbt hbe hbl
    generalize hafter : b.next (fresh + 1) = after at hbt hbe hbl hbn
    rw [layOut_tryBlock span isGroup handlers orelse finalbody hb hafter]
    dsimp only
    obtain ⟨hht, hhe⟩ := hhandlers current bodyEnd after (after + 1) (by lia) (by lia)
    generalize layOutHandlers loop current bodyEnd after (after + 1) handlers = hs at hht hhe ⊢
    have hhn := hs.le_next (after + 1)
    obtain ⟨hot, hoe⟩ := elsePart_within bodyEnd after (hs.next (after + 1)) .unconditional none horelse
    generalize elsePart loop bodyEnd after (hs.next (after + 1)) .unconditional none orelse = o
      at hot hoe ⊢
    have hon := o.le_next (hs.next (after + 1))
    cases hf : layOutAll loop after (o.next (hs.next (after + 1))) finalbody with
    | mk f finalEnd =>
      obtain ⟨⟨hft, hfe⟩, hfl, hfo⟩ := hf ▸ hfinal after _ (by lia)
      have hfn := f.le_next (o.next (hs.next (after + 1)))
      dsimp only at hft hfe hfl hfo
      dsimp only
      refine .of (n := f.next (o.next (hs.next (after + 1)))) (by simp [next_append, hafter])
        ?_ ?_ (by lia) ?_
      · intro a ha
        simp at ha
        grind
      · intro a ha
        simp at ha
        grind
      · simp
        grind

/-! ## Bodies -/

theorem allLie_nil : AllLie loop [] := fun _ _ _ => lies_nothing

theorem allLie_cons {s : Stmt} {rest : List Stmt}
    (hs : ∀ current fresh, current < fresh → Lies loop current fresh (layOut loop current fresh s))
    (hrest : AllLie loop rest) : AllLie loop (s :: rest) := by
  intro current fresh h
  cases hf : layOut loop current fresh s with
  | mk f mid =>
    obtain ⟨⟨hft, hfe⟩, hfl, hfo⟩ := hf ▸ hs current fresh h
    have hfn := f.le_next fresh
    dsimp only at hft hfe hfl hfo
    cases hg : layOutAll loop mid (f.next fresh) rest with
    | mk g last =>
      obtain ⟨⟨hgt, hge⟩, hgl, hgo⟩ := hg ▸ hrest mid (f.next fresh) (by lia)
      have hgn := g.le_next (f.next fresh)
      dsimp only at hgt hge hgl hgo
      simp only [layOutAll, hf, hg]
      refine .of (n := g.next (f.next fresh)) (next_append ..) ?_ ?_ (by lia) ?_
      · intro a ha
        simp at ha
        grind
      · intro a ha
        simp at ha
        grind
      · simp
        grind

mutual

/-- **A statement lies where it is laid out**, whatever its form. -/
theorem layOut_lies (loop : Option Loop) : ∀ (s : Stmt) (current fresh : BlockId),
    current < fresh → Lies loop current fresh (layOut loop current fresh s)
  | .at span form, current, fresh, h => by
    cases form with
    | ifElse test body orelse =>
      exact lies_ifElse h span test (layOutAll_lies loop body) (layOutAll_lies loop orelse)
    | whileLoop test body orelse =>
      simp only [layOut]
      exact lies_loop h _ _ span _ (fun inner => layOutAll_lies (some inner) body)
        (layOutAll_lies loop orelse)
    | forLoop isAsync target iter body orelse =>
      simp only [layOut]
      exact lies_loop h _ _ span _ (fun inner => layOutAll_lies (some inner) body)
        (layOutAll_lies loop orelse)
    | withItems isAsync items body => exact lies_with h span isAsync items (layOutAll_lies loop body)
    | tryBlock isGroup body handlers orelse finalbody =>
      exact lies_try h span isGroup (layOutAll_lies loop body) (layOutHandlers_lie loop handlers)
        (layOutAll_lies loop orelse) (layOutAll_lies loop finalbody)
    | matchCases subject cases => exact lies_match h span subject (layOutCases_lie loop cases)
    | ret value => exact lies_ret h span value
    | breakLoop =>
      cases loop with
      | none => exact lies_nothing
      | some l => exact lies_jump h ⟨l, rfl, .inr rfl⟩ .breakOut span.firstLine
    | continueLoop =>
      cases loop with
      | none => exact lies_nothing
      | some l => exact lies_jump h ⟨l, rfl, .inl rfl⟩ .continueLoop span.firstLine
    | _ => exact lies_places _

theorem layOutAll_lies (loop : Option Loop) : ∀ body : List Stmt, AllLie loop body
  | [] => allLie_nil
  | s :: rest => allLie_cons (layOut_lies loop s) (layOutAll_lies loop rest)

theorem layOutHandlers_lie (loop : Option Loop) : ∀ handlers : List Handler, HandlersLie loop handlers
  | [] => handlersLie_nil
  | .at span type name body :: rest =>
    handlersLie_cons span type name (layOutAll_lies loop body) (layOutHandlers_lie loop rest)

theorem layOutCases_lie (loop : Option Loop) : ∀ cases : List Case, CasesLie loop cases
  | [] => casesLie_nil
  | .of p guard body :: rest =>
    casesLie_cons p guard (layOutAll_lies loop body) (layOutCases_lie loop rest)

end

/-! ## Whole layouts -/

namespace Fragment

theorem mem_predecessors {f : Fragment} {a b : BlockId} :
    a ∈ predecessors f.transfers b ↔ f.Leads a b := by
  simp only [predecessors, Leads, List.mem_eraseDups, List.mem_map, List.mem_filter, decide_eq_true_eq]
  constructor
  · rintro ⟨t, ⟨ht, rfl⟩, rfl⟩
    exact ⟨t, ht, rfl, rfl⟩
  · rintro ⟨t, ht, rfl, rfl⟩
    exact ⟨t, ⟨ht, rfl⟩, rfl⟩

theorem mem_successors {f : Fragment} {a b : BlockId} :
    b ∈ successors f.transfers a ↔ f.Leads a b := by
  simp [successors, Leads, List.mem_eraseDups, and_assoc]

theorem mem_blocks {f : Fragment} {name : String} {last : BlockId} {b : Block} :
    b ∈ (f.toGraph name last).blocks ↔
      ∃ (i : Nat) (o : Opened), f.opened[i]? = some o ∧ b = f.blockOf last i o := by
  simp only [toGraph, List.mem_map, Prod.exists, List.mem_zipIdx_iff_getElem?]
  constructor
  · rintro ⟨o, i, h, rfl⟩
    exact ⟨i, o, h, rfl⟩
  · rintro ⟨i, o, h, rfl⟩
    exact ⟨o, i, h, rfl⟩

/-- A number below that of the blocks that opened is the number of a block. -/
theorem exists_block {f : Fragment} (name : String) (last : BlockId) {a : BlockId}
    (h : 0 ≤ a ∧ a < f.next 0) :
    ∃ b ∈ (f.toGraph name last).blocks, b.id = a := by
  have hlt : a.toNat < f.opened.length := by
    simp only [next] at h
    lia
  refine ⟨f.blockOf last a.toNat _, mem_blocks.2 ⟨a.toNat, _, List.getElem?_eq_getElem hlt, rfl⟩, ?_⟩
  show ((a.toNat : Nat) : Int) = a
  exact Int.toNat_of_nonneg h.1

/-- **A layout whose transfers join its own blocks is a graph whose links fit
together.** -/
theorem toGraph_linked {f : Fragment} (name : String) (last : BlockId)
    (h : ∀ a b, f.Leads a b → (0 ≤ a ∧ a < f.next 0) ∧ (0 ≤ b ∧ b < f.next 0)) :
    (f.toGraph name last).Linked where
  distinct := by
    have hids : (f.toGraph name last).blocks.map (·.id) =
        (List.range f.opened.length).map fun (i : Nat) => (i : Int) := by
      rw [List.range_eq_range', ← List.zipIdx_map_snd, List.map_map]
      simp only [toGraph, List.map_map]
      rfl
    rw [hids]
    exact List.nodup_range.map fun i j hij => Int.ofNat.inj hij
  resolved := by
    intro b hb i hi
    obtain ⟨n, o, -, rfl⟩ := mem_blocks.1 hb
    rcases hi with hi | hi
    · exact exists_block name last (h i n (mem_predecessors.1 hi)).1
    · exact exists_block name last (h n i (mem_successors.1 hi)).2
  agree := by
    intro a ha b hb
    obtain ⟨m, o, -, rfl⟩ := mem_blocks.1 ha
    obtain ⟨n, o', -, rfl⟩ := mem_blocks.1 hb
    exact mem_successors.trans mem_predecessors.symm

end Fragment

theorem Graph.ofBody_eq (name : String) (line : Int) (bindings : List Stmt) {body : List Stmt}
    {f : Fragment} {last : BlockId} (hf : layOutAll none 0 1 body = (f, last)) :
    Graph.ofBody name line bindings body =
      ((opens .entry line).placing 0 bindings ++ f).toGraph name last := by
  simp only [Graph.ofBody, hf]
  rfl

/-- The transfers of a body outside of any loop join its own blocks. -/
theorem Lies.leads_inside {f : Fragment} {last : BlockId} (h : Lies none 0 1 (f, last)) (line : Int)
    (bindings : List Stmt) {a b : BlockId}
    (hab : ((opens .entry line).placing 0 bindings ++ f).Leads a b) :
    (0 ≤ a ∧ a < ((opens .entry line).placing 0 bindings ++ f).next 0) ∧
      (0 ≤ b ∧ b < ((opens .entry line).placing 0 bindings ++ f).next 0) := by
  obtain ⟨⟨htouches, henters⟩, -⟩ := h
  have hab : f.Leads a b := by simpa using hab
  have hnone : ¬ Loop.Ends none b := fun ⟨l, hl, _⟩ => by cases hl
  have hn := f.le_next 1
  have ha := htouches a hab.touches
  have hb := (henters b ⟨a, hab⟩).resolve_left hnone
  simp only [next_append, next_placing, next_opens]
  constructor <;> grind

/-- **The links of a laid out body fit together.** -/
theorem Graph.ofBody_linked (name : String) (line : Int) (bindings body : List Stmt) :
    (Graph.ofBody name line bindings body).Linked := by
  cases hf : layOutAll none 0 1 body with
  | mk f last =>
    have hlies := hf ▸ layOutAll_lies none body 0 1 (by decide)
    rw [Graph.ofBody_eq name line bindings hf]
    exact toGraph_linked name last fun a b => hlies.leads_inside line bindings

theorem Graph.ofFunction?_linked {s : Stmt} {g : Graph} (h : Graph.ofFunction? s = some g) : g.Linked := by
  unfold Graph.ofFunction? at h
  split at h
  · obtain rfl := Option.some.inj h
    exact Graph.ofBody_linked ..
  · cases h

/-- **The links of every graph that a module has fit together.** -/
theorem Graph.of_linked {m : Module} {function : Option String} {g : Graph}
    (h : Graph.of m function = .ok g) : g.Linked := by
  unfold Graph.of at h
  split at h
  · obtain rfl := Except.ok.inj h
    exact Graph.ofBody_linked ..
  · split at h
    · rename_i s _
      obtain rfl := Except.ok.inj h
      cases hs : Graph.ofFunction? s with
      | none =>
        refine ⟨List.nodup_nil, ?_, ?_⟩ <;> intro a ha <;> cases ha
      | some g => exact Graph.ofFunction?_linked hs
    · cases h

end Reaching
