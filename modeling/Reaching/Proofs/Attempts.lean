/-
A body with `try` statements is read as it is run.

A handler that stands in a whole is read from both blocks that lead to it, the one in front of
its statement and the one in which the body of the statement ends, and the `finally` part
is read where control falls into it. So a layout is read as the body is run when `try`
statements follow the rule `Course.linked` (`layOutAll_linked`), and a body without them
as it is run under any rule (`layOutAll_faithful`).
-/
import Reaching.Proofs.Courses
import Reaching.Proofs.Reading

namespace Reaching

open Code Fragment Course

variable {loop : Option Loop} {current fresh : BlockId}

/-! ## Handlers -/

/-- Handlers that stand in a whole are read as one of them is run, from both blocks that lead
to them. -/
def HandlersFaithful (loop : Option Loop) (handlers : List Handler) (runs : Course) : Prop :=
  ∀ before bodyEnd after fresh F w, before < fresh → bodyEnd < fresh → after < fresh →
    (∀ a, fresh ≤ a → a < (layOutHandlers loop before bodyEnd after fresh handlers).next fresh →
      Fragment.SameAt F (layOutHandlers loop before bodyEnd after fresh handlers) a) →
    ∀ a, a = before ∨ a = bodyEnd →
      ((∃ b, (layOutHandlers loop before bodyEnd after fresh handlers).Leads a b ∧ F.ReadsFrom b w) ↔
        Then runs (onward F loop after (F.statementsOf after)) w)

theorem handlersFaithful_nil : HandlersFaithful loop [] never := by
  intro before bodyEnd after fresh F w _ _ _ _ a _
  simp [layOutHandlers, not_then_never]

theorem handlersFaithful_cons (span : Span) (type : Option Expr) (name : Option String)
    {body : List Stmt} {rest : List Handler} {bodyRuns restRuns : Course}
    (hbody : AllFaithful loop body bodyRuns) (hrest : HandlersFaithful loop rest restRuns) :
    HandlersFaithful loop (.at span type name body :: rest)
      (either (behind (handlerHeaders span type name) bodyRuns) restRuns) := by
  intro before bodyEnd after fresh F w hbefore hend hafter hF
  have hb := layOutAll_lies loop body fresh (fresh + 1) (by lia)
  have hbf := hbody fresh (fresh + 1) (by lia)
  cases hbl : layOutAll loop fresh (fresh + 1) body with
  | mk b last =>
    rw [hbl] at hb hbf
    have hbn := b.le_next (fresh + 1)
    have hr := layOutHandlers_lie loop rest before bodyEnd after (b.next (fresh + 1)) (by lia) (by lia)
    have hrf := hrest before bodyEnd after (b.next (fresh + 1)) F w (by lia) (by lia) (by lia)
    rw [layOutHandlers_cons before bodyEnd after span type name rest hbl, ← handlerHeaders] at hF ⊢
    generalize layOutHandlers loop before bodyEnd after (b.next (fresh + 1)) rest = r at hr hrf hF ⊢
    have hrn := r.le_next (b.next (fresh + 1))
    simp only [next_append, next_decides, next_opens, next_passes, next_placing, next_empty] at hF
    -- the handler itself is a part behind its headers
    have hfirst : F.ReadsFrom fresh w ↔ Then (behind (handlerHeaders span type name) bodyRuns)
        (onward F loop after (F.statementsOf after)) w := by
      refine (hbf.placing (by lia) fun _ _ => then_behind).closed (hb.placing _) fun a ha => ?_
      simp only [next_append, next_placing, next_empty] at ha
      have hcur : a ≠ before ∧ a ≠ bodyEnd := by lia
      have hnotr : ¬ r.Touches a := fun ht => by
        have := hr.touches a ht
        lia
      refine (hF a (by lia) (by lia)).trans ((sameAt_left hnotr).trans ?_)
      simp [SameAt, hcur]
    have hothers := hrf fun a h1 h2 => by
      refine (hF a (by lia) h2).trans (sameAt_right fun ht => ?_)
      have hlast := hb.last
      have hheaders : ¬ (placing {} fresh (handlerHeaders span type name)).Touches a := fun ht => by
        rcases touches_placing ht with rfl | ht
        · lia
        · exact touches_empty ht
      have hnotb : ¬ b.Touches a := fun ht => by
        have := hb.within.touches a ht
        dsimp only at this
        lia
      dsimp only at hlast
      simp [hheaders, hnotb] at ht
      lia
    intro a ha
    have hbend := hb.last
    dsimp only at hbend
    have hnotb : ∀ c, ¬ b.Leads a c := fun c hc => by
      have := hb.within.touches a hc.touches
      dsimp only at this
      lia
    have hne : a ≠ last := by lia
    rw [then_either, ← hfirst, ← hothers a ha]
    simp [hnotb, hne, or_and_right, exists_or]
    rw [← or_and_right, and_iff_right ha]

/-- Handlers place nothing in the blocks in front of them, and the body is not left there. -/
theorem layOutHandlers_outside (loop : Option Loop) (before bodyEnd after : BlockId)
    (handlers : List Handler) {a : BlockId} : ∀ fresh, before < fresh → bodyEnd < fresh → a < fresh →
      (layOutHandlers loop before bodyEnd after fresh handlers).statementsOf a = [] ∧
        a ∉ (layOutHandlers loop before bodyEnd after fresh handlers).returns := by
  induction handlers with
  | nil => simp [layOutHandlers]
  | cons h rest ih =>
    intro fresh hbefore hend ha
    obtain ⟨span, type, name, body⟩ := h
    have hb := layOutAll_lies loop body fresh (fresh + 1) (by lia)
    cases hbl : layOutAll loop fresh (fresh + 1) body with
    | mk b last =>
      rw [hbl] at hb
      have hbn := b.le_next (fresh + 1)
      obtain ⟨hst, -, hreturns⟩ := untouched (f := b) (a := a) fun ht => by
        have := hb.within.touches a ht
        lia
      have hrest := ih (b.next (fresh + 1)) (by lia) (by lia) (by lia)
      have hne : fresh ≠ a := by lia
      rw [layOutHandlers_cons before bodyEnd after span type name rest hbl]
      simp [statementsOf_placing, hst, hreturns, hrest, hne]

/-! ## `try` statements -/

/-- The parts of a `try` statement one after the other. -/
def tryParts (bodyLine lastLine : Int) (current fresh : BlockId) (b hs o f : Fragment) : Fragment :=
  opens .body bodyLine ++ passes current fresh .unconditional ++ b ++ opens .body lastLine ++ hs ++ o ++ f

/-- How the parts of a `try` statement share the blocks. The body has those from `fresh` up to
the block behind the statement, which the `finally` part goes on with. The handlers and the `else`
part have blocks of their own, and lead there from the block in front of the statement and
from the end of the body. -/
structure TryZones (current fresh bodyEnd after m n last : BlockId) (b hs o f : Fragment) : Prop where
  order : current < fresh ∧ fresh ≤ bodyEnd ∧ bodyEnd < after ∧ after < m ∧ m ≤ n
  body : ∀ a, b.Touches a → fresh ≤ a ∧ a < after
  handlers : ∀ a, hs.Touches a → a = current ∨ a = bodyEnd ∨ (after < a ∧ a < m)
  orelse : ∀ a, o.Touches a → a = bodyEnd ∨ (m ≤ a ∧ a < n)
  final : ∀ a, f.Touches a → a = after ∨ n ≤ a
  isOpen : ¬ b.Leaves bodyEnd
  handlersOutside : ∀ a ≤ after, hs.statementsOf a = [] ∧ a ∉ hs.returns
  orelseOutside : o.statementsOf bodyEnd = [] ∧ bodyEnd ∉ o.returns
  last : last = after ∨ (n ≤ last ∧ last < f.next n)
  next : b.next (fresh + 1) = after ∧ hs.next (after + 1) = m ∧ o.next m = n

namespace TryZones

variable {bodyEnd after m n last a : BlockId} {b hs o f : Fragment} {bodyLine lastLine : Int}
  (z : TryZones current fresh bodyEnd after m n last b hs o f)

include z

/-! Each part is alone in its own blocks. -/

theorem sameAt_final (ha : a = after ∨ n ≤ a) :
    (tryParts bodyLine lastLine current fresh b hs o f).SameAt f a := by
  have horder := z.order
  refine sameAt_right fun ht => ?_
  simp at ht
  rcases ht with ((ht | ht) | ht) | ht
  · lia
  · have := z.body a ht
    lia
  · have := z.handlers a ht
    lia
  · have := z.orelse a ht
    lia

theorem not_final (ha : a ≠ after) (hlt : a < n) : ¬ f.Touches a := fun ht => by
  have := z.final a ht
  lia

theorem sameAt_orelse (h1 : m ≤ a) (h2 : a < n) :
    (tryParts bodyLine lastLine current fresh b hs o f).SameAt o a := by
  have horder := z.order
  refine (sameAt_left (z.not_final (by lia) h2)).trans (sameAt_right fun ht => ?_)
  simp at ht
  rcases ht with (ht | ht) | ht
  · lia
  · have := z.body a ht
    lia
  · have := z.handlers a ht
    lia

theorem sameAt_handlers (h1 : after < a) (h2 : a < m) :
    (tryParts bodyLine lastLine current fresh b hs o f).SameAt hs a := by
  have horder := z.order
  have hnoto : ¬ o.Touches a := fun ht => by
    have := z.orelse a ht
    lia
  refine (sameAt_left (z.not_final (by lia) (by lia))).trans
    ((sameAt_left hnoto).trans (sameAt_right fun ht => ?_))
  simp at ht
  rcases ht with ht | ht
  · lia
  · have := z.body a ht
    lia

theorem sameAt_body (h1 : fresh ≤ a) (h2 : a < after) (hne : a ≠ bodyEnd) :
    (tryParts bodyLine lastLine current fresh b hs o f).SameAt b a := by
  have horder := z.order
  have hnoto : ¬ o.Touches a := fun ht => by
    have := z.orelse a ht
    lia
  have hnoth : ¬ hs.Touches a := fun ht => by
    have := z.handlers a ht
    lia
  have hcur : a ≠ current := by lia
  refine (sameAt_left (z.not_final (by lia) (by lia))).trans ((sameAt_left hnoto).trans
    ((sameAt_left hnoth).trans ?_))
  simp [SameAt, hcur]

/-- The body ends in a block that leads to the handlers and to the `else` part. -/
theorem at_bodyEnd (bodyLine lastLine : Int) :
    let t := tryParts bodyLine lastLine current fresh b hs o f
    t.statementsOf bodyEnd = b.statementsOf bodyEnd ∧ bodyEnd ∉ t.returns ∧
      ∀ c, t.Leads bodyEnd c ↔ hs.Leads bodyEnd c ∨ o.Leads bodyEnd c := by
  have horder := z.order
  have hne : bodyEnd ≠ current := by lia
  obtain ⟨hst, hleads, hreturns⟩ := untouched (z.not_final (a := bodyEnd) (by lia) (by lia))
  have hb : (∀ c, ¬ b.Leads bodyEnd c) ∧ bodyEnd ∉ b.returns :=
    ⟨fun c hc => z.isOpen hc.leaves, fun hr => z.isOpen (leaves_of_mem_returns hr)⟩
  simp [tryParts, hst, hleads, hreturns, hb, hne, z.orelseOutside, z.handlersOutside bodyEnd (by lia)]

/-- The block in front of the statement leads to the body and to the handlers. -/
theorem at_current (bodyLine lastLine : Int) :
    let t := tryParts bodyLine lastLine current fresh b hs o f
    t.statementsOf current = [] ∧ current ∉ t.returns ∧
      ∀ c, t.Leads current c ↔ c = fresh ∨ hs.Leads current c := by
  have horder := z.order
  obtain ⟨hfst, hfleads, hfreturns⟩ := untouched (z.not_final (a := current) (by lia) (by lia))
  obtain ⟨hbst, hbleads, hbreturns⟩ := untouched (f := b) (a := current) fun ht => by
    have := z.body current ht
    lia
  obtain ⟨host, holeads, horeturns⟩ := untouched (f := o) (a := current) fun ht => by
    have := z.orelse current ht
    lia
  simp [tryParts, hfst, hfleads, hfreturns, hbst, hbleads, hbreturns, host, holeads, horeturns,
    z.handlersOutside current (by lia)]

/-! A whole in which the statement stands. -/

variable {F : Fragment} {rest : List Stmt}
  (hF : Embeds F current fresh (tryParts bodyLine lastLine current fresh b hs o f, last) rest)

include hF

/-- Its blocks are as the statement has them, but for the last one. -/
theorem stands (h1 : fresh ≤ a) (h2 : a < f.next n) (hne : a ≠ last) :
    F.SameAt (tryParts bodyLine lastLine current fresh b hs o f) a := by
  refine hF.inside a h1 ?_ hne
  simpa [tryParts, next_append, z.next] using h2

/-- The `finally` part is read from the block behind the statement. -/
theorem reads_final {finalRuns : Course} (hfinal : Faithful loop after n (f, last) finalRuns)
    (v : List Stmt) : F.ReadsFrom after v ↔ Then finalRuns (onward F loop last rest) v := by
  have horder := z.order
  have hlast := z.last
  have hn := f.le_next n
  have hpart : ∀ a, a = after ∨ (n ≤ a ∧ a < f.next n) → a ≠ last → F.SameAt f a := fun a ha hne =>
    (z.stands hF (by lia) (by lia) hne).trans (z.sameAt_final (ha.imp_right And.left))
  have hend : F.statementsOf last = f.statementsOf last ++ rest := by
    rw [hF.after (by lia), (z.sameAt_final (hlast.imp_right And.left)).1]
  have hE : Embeds F after n (f, last) rest :=
    ⟨fun a h1 h2 => hpart a (.inr ⟨h1, h2⟩), fun hne => (hpart after (.inl rfl) hne.symm).2, fun _ => hend⟩
  have hstart : F.statementsOf after = f.statementsOf after ++ if after = last then rest else [] := by
    by_cases hal : after = last
    · rw [if_pos hal, hal, hend]
    · rw [if_neg hal, List.append_nil, (hpart after (.inl rfl) hal).1]
  rw [ReadsFrom, hstart]
  exact hfinal F rest v hE

/-- The body is read from its first block. -/
theorem reads_body {bodyRuns : Course} (hbody : Faithful loop fresh (fresh + 1) (b, bodyEnd) bodyRuns)
    (v : List Stmt) : F.ReadsFrom fresh v ↔ Then bodyRuns (onward F loop bodyEnd []) v := by
  have horder := z.order
  have hlast := z.last
  have hnext := z.next
  have hn := f.le_next n
  have hpart : ∀ a, fresh ≤ a → a < after → a ≠ bodyEnd → F.SameAt b a := fun a h1 h2 hne =>
    (z.stands hF h1 (by lia) (by lia)).trans (z.sameAt_body h1 h2 hne)
  have hend : F.statementsOf bodyEnd = b.statementsOf bodyEnd :=
    (z.stands hF (by lia) (by lia) (by lia)).1.trans (z.at_bodyEnd bodyLine lastLine).1
  have hE : Embeds F fresh (fresh + 1) (b, bodyEnd) [] :=
    ⟨fun a h1 h2 hne => hpart a (by lia) (by lia) hne,
      fun hne => (hpart fresh (by lia) (by lia) hne.symm).2, fun _ => by rw [hend, List.append_nil]⟩
  have hstart : F.statementsOf fresh = b.statementsOf fresh := by
    by_cases hfe : fresh = bodyEnd
    · rw [hfe, hend]
    · exact (hpart fresh (by lia) (by lia) hfe).1
  have hread := hbody F [] v hE
  rwa [ite_self, List.append_nil, ← hstart] at hread

/-- Behind the body a handler or the `else` part is read. -/
theorem reads_bodyEnd (v : List Stmt) :
    F.Reads bodyEnd [] v ↔ (∃ c, hs.Leads bodyEnd c ∧ F.ReadsFrom c v) ∨
      ∃ c, o.Leads bodyEnd c ∧ F.ReadsFrom c v := by
  have horder := z.order
  have hlast := z.last
  have hn := f.le_next n
  obtain ⟨-, hleads, hreturns⟩ := z.stands hF (a := bodyEnd) (by lia) (by lia) (by lia)
  obtain ⟨-, hstay, hturn⟩ := z.at_bodyEnd bodyLine lastLine
  simp only [reads_nil, hleads, hreturns, hstay, hturn, false_and, false_or, or_and_right, exists_or]

/-- The block in front of the statement leads to the body and to the handlers. -/
theorem reads_current (v : List Stmt) :
    F.Reads current [] v ↔ F.ReadsFrom fresh v ∨ ∃ c, hs.Leads current c ∧ F.ReadsFrom c v := by
  have horder := z.order
  have hlast := z.last
  obtain ⟨hleads, hreturns⟩ := hF.first (by dsimp only; lia)
  obtain ⟨-, hstay, hpass⟩ := z.at_current bodyLine lastLine
  simp only [reads_nil, hleads, hreturns, hstay, hpass, false_and, false_or, or_and_right, exists_or,
    exists_eq_left]

end TryZones

/-- **A `try` statement is read as its parts are run**: a handler may be run instead of the body
or behind it, and jumps pass the `finally` part by. -/
theorem faithful_try (h : current < fresh) (span : Span) (isGroup : Bool) {body : List Stmt}
    {handlers : List Handler} {orelse finalbody : List Stmt}
    {bodyRuns handlerRuns elseRuns finalRuns : Course} (hbody : AllFaithful loop body bodyRuns)
    (hhandlers : HandlersFaithful loop handlers handlerRuns)
    (horelse : AllFaithful loop orelse elseRuns) (hfinal : AllFaithful loop finalbody finalRuns) :
    Faithful loop current fresh
      (layOut loop current fresh (.at span (.tryBlock isGroup body handlers orelse finalbody)))
      (linked bodyRuns handlerRuns elseRuns finalRuns) := by
  have hb := layOutAll_lies loop body fresh (fresh + 1) (by lia)
  have hbf := hbody fresh (fresh + 1) (by lia)
  cases hbl : layOutAll loop fresh (fresh + 1) body with
  | mk b bodyEnd =>
    rw [hbl] at hb hbf
    have hbend := hb.last
    have hbn := b.le_next (fresh + 1)
    dsimp only at hbend
    generalize hafter : b.next (fresh + 1) = after at hbend hbn
    have hh := layOutHandlers_lie loop handlers current bodyEnd after (after + 1) (by lia) (by lia)
    have hhout := fun a => layOutHandlers_outside loop current bodyEnd after handlers (a := a) (after + 1)
      (by lia) (by lia)
    have hhf := fun F v => hhandlers current bodyEnd after (after + 1) F v (by lia) (by lia) (by lia)
    rw [layOut_tryBlock span isGroup handlers orelse finalbody hbl hafter]
    dsimp only
    generalize layOutHandlers loop current bodyEnd after (after + 1) handlers = hs at hh hhout hhf ⊢
    have hhn := hs.le_next (after + 1)
    generalize hm : hs.next (after + 1) = m at hhn ⊢
    have hbefore : bodyEnd < m := by lia
    have ho := elsePart_within bodyEnd after m .unconditional none (layOutAll_lies loop orelse)
    have hoout := elsePart_before loop after .unconditional none orelse hbefore
    have hof := elsePart_reads after .unconditional none hbefore horelse
    generalize elsePart loop bodyEnd after m .unconditional none orelse = o at ho hoout hof ⊢
    have hon := o.le_next m
    generalize hn : o.next m = n at hon ⊢
    have hf := layOutAll_lies loop finalbody after n (by lia)
    have hff := hfinal after n (by lia)
    cases hfl : layOutAll loop after n finalbody with
    | mk f last =>
      rw [hfl] at hf hff
      have z : TryZones current fresh bodyEnd after m n last b hs o f := {
        order := by lia
        body := fun a ha => by
          have := hb.within.touches a ha
          dsimp only at this
          lia
        handlers := fun a ha => by
          have := hh.touches a ha
          lia
        orelse := fun a ha => by
          have := ho.touches a ha
          lia
        final := fun a ha => (hf.within.touches a ha).imp_right And.left
        isOpen := hb.isOpen
        handlersOutside := fun a ha => hhout a (by lia)
        orelseOutside := hoout
        last := hf.last
        next := ⟨hafter, hm, hn⟩ }
      intro F rest w hF
      have hend := z.last
      have hfn := f.le_next n
      have honward : ∀ e v, onward F loop after (F.statementsOf after) e v ↔
          andThen finalRuns (onward F loop last rest) e v := by
        intro e v
        cases e with
        | falls => exact z.reads_final hF hff v
        | _ => exact Iff.rfl
      have hhandled : ∀ a, a = current ∨ a = bodyEnd → ∀ v, (∃ c, hs.Leads a c ∧ F.ReadsFrom c v) ↔
          Then handlerRuns (andThen finalRuns (onward F loop last rest)) v := by
        intro a ha v
        refine (hhf F v (fun c h1 h2 => ?_) a ha).trans (then_congr fun e u _ => honward e u)
        exact (z.stands hF (by lia) (by lia) (by lia)).trans (z.sameAt_handlers h1 (by lia))
      have helse : ∀ v, (∃ c, o.Leads bodyEnd c ∧ F.ReadsFrom c v) ↔
          Then elseRuns (andThen finalRuns (onward F loop last rest)) v := by
        intro v
        refine (hof F v fun c h1 h2 => ?_).trans (then_congr fun e u _ => honward e u)
        exact (z.stands hF (by lia) (by lia) (by lia)).trans (z.sameAt_orelse h1 (by lia))
      have hbodyRead : ∀ v, F.ReadsFrom fresh v ↔ Then bodyRuns
          (andThen (either handlerRuns elseRuns) (andThen finalRuns (onward F loop last rest))) v := by
        intro v
        refine (z.reads_body hF hbf v).trans (then_congr fun e u _ => ?_)
        cases e with
        | falls =>
          refine (z.reads_bodyEnd hF u).trans ?_
          rw [hhandled bodyEnd (.inr rfl), helse]
          exact then_either.symm
        | _ => exact Iff.rfl
      have hne : current ≠ last := by lia
      rw [← tryParts, (z.at_current ..).1, if_neg hne, List.append_nil, z.reads_current hF, hbodyRead,
        hhandled current (.inl rfl), linked, then_seq, then_either, then_seq]

/-! ## Bodies -/

mutual

/-- **A statement is read as it is run**, wherever it is laid out. -/
theorem layOut_linked (loop : Option Loop) : ∀ (s : Stmt) (current fresh : BlockId), current < fresh →
    Faithful loop current fresh (layOut loop current fresh s) (s.course linked loop.isSome)
  | .at span form, current, fresh, h => by
    cases form with
    | ifElse test body orelse =>
      exact faithful_ifElse h span test (layOutAll_linked loop body) (layOutAll_linked loop orelse)
        fun _ _ => then_behind.trans (exists_congr fun _ => and_congr_right fun _ => then_either)
    | whileLoop test body orelse =>
      simp only [layOut, Stmt.course]
      exact faithful_loop h _ _ span _ (fun inner => layOutAll_linked (some inner) body)
        (layOutAll_linked loop orelse) fun _ _ => then_turns
    | forLoop isAsync target iter body orelse =>
      simp only [layOut, Stmt.course]
      exact faithful_loop h _ _ span _ (fun inner => layOutAll_linked (some inner) body)
        (layOutAll_linked loop orelse) fun _ _ => then_turns
    | withItems isAsync items body =>
      exact faithful_with h span isAsync items (layOutAll_linked loop body) fun _ _ => then_behind
    | tryBlock isGroup body handlers orelse finalbody =>
      exact faithful_try h span isGroup (layOutAll_linked loop body) (layOutHandlers_linked loop handlers)
        (layOutAll_linked loop orelse) (layOutAll_linked loop finalbody)
    | matchCases subject cases =>
      refine faithful_match h span subject (layOutCases_linked loop cases) fun _ _ => then_behind.trans ?_
      exact exists_congr fun _ => and_congr_right fun _ => then_either.trans (or_congr_right then_none)
    | ret value => exact faithful_ret h span value fun _ _ => then_one
    | breakLoop =>
      cases loop with
      | none => exact allFaithful_nil (fun _ _ => then_none) current fresh h
      | some l => exact faithful_jump h (fun _ _ => then_none) fun F rest w => by simp [onward]
    | continueLoop =>
      cases loop with
      | none => exact allFaithful_nil (fun _ _ => then_none) current fresh h
      | some l => exact faithful_jump h (fun _ _ => then_none) fun F rest w => by simp [onward]
    | _ => exact faithful_simple fun _ _ => then_one

theorem layOutAll_linked (loop : Option Loop) : ∀ body : List Stmt,
    AllFaithful loop body (allCourse linked loop.isSome body)
  | [] => allFaithful_nil fun _ _ => then_none
  | s :: rest => allFaithful_cons (layOut_linked loop s) (layOutAll_linked loop rest) fun _ _ => then_seq

theorem layOutHandlers_linked (loop : Option Loop) : ∀ handlers : List Handler,
    HandlersFaithful loop handlers (handlersCourse linked loop.isSome handlers)
  | [] => handlersFaithful_nil
  | .at span type name body :: rest =>
    handlersFaithful_cons span type name (layOutAll_linked loop body) (layOutHandlers_linked loop rest)

theorem layOutCases_linked (loop : Option Loop) : ∀ cases : List Case,
    CasesFaithful loop cases (casesCourse linked loop.isSome cases)
  | [] => casesFaithful_nil fun _ _ => not_then_never
  | .of p guard body :: rest =>
    casesFaithful_cons p guard (layOutAll_linked loop body) (layOutCases_linked loop rest)
      fun _ _ => then_either

end

/-- **A structured body is read as it is run**, wherever it is laid out. -/
theorem layOutAll_faithful (loop : Option Loop) (body : List Stmt)
    (h : allStructured loop.isSome body = true) : AllFaithful loop body (ExecAll body) :=
  execAll_eq_course linked loop.isSome body h ▸ layOutAll_linked loop body

end Reaching
