/-
How control leaves the parts of a body.

Behind a `return`, and behind a jump inside of a loop, a block opens that nothing
leads to. What follows there is laid out like any other code, and where the statement
around it ends, it is joined to what comes next, which other branches may reach. How
control leaves the parts (`Code.Stmt.outflow`) tells when this happens: not if the
parts that meet somewhere are all left the same way.

This is shown for each form in a whole layout that does not lead into the part from
elsewhere (`Fragment.Standing`), for a part whose start is reached (`Flows`). The blocks
of a part whose start is not reached are not reached either (`Lies.unreached`).
-/
import Reaching.Proofs.Region

namespace Reaching

open Code Fragment Relation

/-! ## Ways out -/

/-- How control leaves the end of a part: it is reached from the start of the part, or
it is not, or the part joins code that is not reached to code that is. -/
inductive Outflow where
  | falls | stops | mixed
  deriving DecidableEq, Repr

namespace Outflow

/-- Two parts whose ends meet. -/
def meet (o o' : Outflow) : Outflow := if o = o' then o else mixed

/-- One part after another. -/
def andThen : Outflow → Outflow → Outflow
  | falls, o => o
  | o, _ => o

/-- The body of a loop, and what runs when its test fails. -/
def turning : Outflow → Outflow → Outflow
  | falls, o => o
  | _, _ => mixed

/-- The body of a `try` statement, and its handlers with what runs when there is no
error. Control comes to handlers from the start of the body too. -/
def guarded : Outflow → Bool → Outflow → Outflow
  | falls, _, o => o
  | stops, false, _ => stops
  | _, _, _ => mixed

end Outflow

mutual

/-- How control leaves the end of a statement. Jumps outside of any loop do nothing. -/
def Code.Stmt.outflow (inLoop : Bool) : Stmt → Outflow
  | .at _ (.ifElse _ body orelse) => (allOutflow inLoop body).meet (allOutflow inLoop orelse)
  | .at _ (.whileLoop _ body orelse) => (allOutflow true body).turning (allOutflow inLoop orelse)
  | .at _ (.forLoop _ _ _ body orelse) => (allOutflow true body).turning (allOutflow inLoop orelse)
  | .at _ (.withItems _ _ body) => allOutflow inLoop body
  | .at _ (.tryBlock _ body handlers orelse finalbody) =>
    ((allOutflow inLoop body).guarded (!handlers.isEmpty)
      (handlersOutflow inLoop (allOutflow inLoop orelse) handlers)).andThen (allOutflow inLoop finalbody)
  | .at _ (.matchCases _ cases) => casesOutflow inLoop .falls cases
  | .at _ (.ret _) => .stops
  | .at _ .breakLoop => if inLoop then .stops else .falls
  | .at _ .continueLoop => if inLoop then .stops else .falls
  | .at _ _ => .falls

/-- How control leaves statements one after another. -/
def allOutflow (inLoop : Bool) : List Stmt → Outflow
  | [] => .falls
  | s :: rest => (s.outflow inLoop).andThen (allOutflow inLoop rest)

/-- How control leaves handlers that meet with another part. -/
def handlersOutflow (inLoop : Bool) (other : Outflow) : List Handler → Outflow
  | [] => other
  | .at _ _ _ body :: rest => (allOutflow inLoop body).meet (handlersOutflow inLoop other rest)

/-- How control leaves cases that meet with another part. -/
def casesOutflow (inLoop : Bool) (other : Outflow) : List Case → Outflow
  | [] => other
  | .of _ _ body :: rest => (allOutflow inLoop body).meet (casesOutflow inLoop other rest)

end

/-! ## Blocks that are reached -/

namespace Fragment

@[grind →]
theorem Leads.enters {f : Fragment} {a b : BlockId} (h : f.Leads a b) : f.Enters b := ⟨a, h⟩

/-- Control comes to a block from the first one. -/
def Reached (F : Fragment) (a : BlockId) : Prop := ReflTransGen F.Leads 0 a

/-- A part stands in a whole in which its own blocks are entered from it alone. -/
structure Standing (F : Fragment) (fresh : BlockId) (p : Fragment) : Prop where
  kept : ∀ a b, p.Leads a b → F.Leads a b
  entered : ∀ a b, F.Leads a b → fresh ≤ b → b < p.next fresh → p.Leads a b

variable {F p q : Fragment} {fresh m : BlockId}

theorem Standing.reached (h : Standing F fresh p) {a b : BlockId} (hab : p.Leads a b)
    (ha : F.Reached a) : F.Reached b := ha.tail (h.kept a b hab)

/-- A part of a part stands in the whole too. -/
theorem Standing.part (h : Standing F fresh p) (hle : fresh ≤ m) (hnext : q.next m ≤ p.next fresh)
    (hkept : ∀ a b, q.Leads a b → p.Leads a b)
    (hback : ∀ a b, m ≤ b → b < q.next m → p.Leads a b → q.Leads a b) : Standing F m q where
  kept := fun a b hab => h.kept a b (hkept a b hab)
  entered := fun a b hab h1 h2 => hback a b h1 h2 (h.entered a b hab (by lia) (by lia))

/-- A block of a part that is reached is reached through the part. -/
theorem Standing.exists_leads (h : Standing F fresh p) (hfresh : 0 < fresh) {b : BlockId}
    (h1 : fresh ≤ b) (h2 : b < p.next fresh) (hb : F.Reached b) :
    ∃ a, F.Reached a ∧ p.Leads a b := by
  rcases hb.cases_tail with rfl | ⟨a, ha, hab⟩
  · lia
  · exact ⟨a, ha, h.entered a b hab h1 h2⟩

/-- **The blocks of a part are not reached** where those are not from which it leads. -/
theorem Standing.unreached (h : Standing F fresh p) {outer entered : BlockId → Prop}
    (hwithin : p.Within outer entered fresh) (hfresh : 0 < fresh)
    (houter : ∀ a, outer a → ¬ F.Reached a) {b : BlockId} (h1 : fresh ≤ b) (h2 : b < p.next fresh) :
    ¬ F.Reached b := by
  intro hb
  induction hb with
  | refl => lia
  | tail ha hab ih =>
    rcases hwithin.touches _ (h.entered _ _ hab h1 h2).touches with hout | ⟨h3, h4⟩
    · exact houter _ hout ha
    · exact ih h3 h4

/-- Such a part leads from no block that is reached. -/
theorem Standing.unreached_of_leads (h : Standing F fresh p) {outer entered : BlockId → Prop}
    (hwithin : p.Within outer entered fresh) (hfresh : 0 < fresh)
    (houter : ∀ a, outer a → ¬ F.Reached a) {a b : BlockId} (hab : p.Leads a b) : ¬ F.Reached a := by
  rcases hwithin.touches a hab.touches with hout | hin
  · exact houter a hout
  · exact h.unreached hwithin hfresh houter hin.1 hin.2

end Fragment

/-! ## What an outflow says -/

/-- Control leaves a part that is reached at its start the way an outflow says. Jumps
to the ends of a loop are left to the loop. -/
def Flows (F : Fragment) (loop : Option Loop) (p : Fragment) (last : BlockId) : Outflow → Prop
  | .falls => F.Reached last ∧ ∀ a b, p.Leads a b → F.Reached a ∧ ¬ Loop.Ends loop b
  | .stops => ¬ F.Reached last ∧
      ∀ a b, p.Leads a b → F.Reached b → F.Reached a ∨ Loop.Ends loop b
  | .mixed => ∃ a b, p.Leads a b ∧ ¬ F.Reached a ∧ F.Reached b

/-- Control passes from a part, or from several, to a block where other parts may pass
it too, the way an outflow says. -/
def Meets (F : Fragment) (loop : Option Loop) (p : Fragment) (after : BlockId) : Outflow → Prop
  | .falls => F.Reached after ∧ ∀ a b, p.Leads a b → F.Reached a ∧ ¬ Loop.Ends loop b
  | .stops => (∃ a, p.Leads a after) ∧ (∀ a, p.Leads a after → ¬ F.Reached a) ∧
      ∀ a b, p.Leads a b → F.Reached b → F.Reached a ∨ Loop.Ends loop b ∨ b = after
  | .mixed => ∃ a b, p.Leads a b ∧ ¬ F.Reached a ∧ F.Reached b

variable {loop : Option Loop} {current fresh : BlockId} {F p q : Fragment} {last after : BlockId}
  {o o' : Outflow}

theorem Flows.congr (h : ∀ a b, p.Leads a b ↔ q.Leads a b) :
    Flows F loop p last o ↔ Flows F loop q last o := by
  cases o <;> simp only [Flows, h]

theorem Meets.congr (h : ∀ a b, p.Leads a b ↔ q.Leads a b) :
    Meets F loop p after o ↔ Meets F loop q after o := by
  cases o <;> simp only [Meets, h]

/-- A part whose end passes control on. -/
theorem Flows.meets (h : Flows F loop p last o) (hreached : F.Reached last → F.Reached after)
    (hno : ∀ a, ¬ p.Leads a after) (hends : ¬ Loop.Ends loop after) (kind : TransferKind)
    (text : Option String) : Meets F loop (p ++ passes last after kind text) after o := by
  cases o with
  | falls =>
    obtain ⟨hlast, hall⟩ := h
    refine ⟨hreached hlast, fun a b hab => ?_⟩
    rcases leads_append.1 hab with hab | hab
    · exact hall a b hab
    · obtain ⟨rfl, rfl⟩ := leads_passes.1 hab
      exact ⟨hlast, hends⟩
  | stops =>
    obtain ⟨hlast, hall⟩ := h
    refine ⟨⟨last, by simp⟩, fun a ha => ?_, fun a b hab hb => ?_⟩
    · obtain ⟨rfl, -⟩ := leads_passes.1 ((leads_append.1 ha).resolve_left (hno a))
      exact hlast
    · rcases leads_append.1 hab with hab | hab
      · exact (hall a b hab hb).imp_right .inl
      · exact .inr (.inr (leads_passes.1 hab).2)
  | mixed =>
    obtain ⟨a, b, hab, hcross⟩ := h
    exact ⟨a, b, leads_append.2 (.inl hab), hcross⟩

/-- Parts that pass control to the same block. -/
theorem Meets.append (h : Meets F loop p after o) (h' : Meets F loop q after o') :
    Meets F loop (p ++ q) after (o.meet o') := by
  have hleft {a b : BlockId} (hab : p.Leads a b) : (p ++ q).Leads a b := leads_append.2 (.inl hab)
  have hright {a b : BlockId} (hab : q.Leads a b) : (p ++ q).Leads a b := leads_append.2 (.inr hab)
  cases o with
  | falls =>
    cases o' with
    | falls =>
      refine ⟨h.1, fun a b hab => ?_⟩
      exact (leads_append.1 hab).elim (h.2 a b) (h'.2 a b)
    | stops =>
      obtain ⟨⟨a, ha⟩, hnot, -⟩ := h'
      exact ⟨a, after, hright ha, hnot a ha, h.1⟩
    | mixed =>
      obtain ⟨a, b, hab, hcross⟩ := h'
      exact ⟨a, b, hright hab, hcross⟩
  | stops =>
    cases o' with
    | falls =>
      obtain ⟨⟨a, ha⟩, hnot, -⟩ := h
      exact ⟨a, after, hleft ha, hnot a ha, h'.1⟩
    | stops =>
      obtain ⟨⟨a, ha⟩, hnot, hall⟩ := h
      refine ⟨⟨a, hleft ha⟩, fun c hc => ?_, fun c b hcb => ?_⟩
      · exact (leads_append.1 hc).elim (hnot c) (h'.2.1 c)
      · exact (leads_append.1 hcb).elim (hall c b) (h'.2.2 c b)
    | mixed =>
      obtain ⟨a, b, hab, hcross⟩ := h'
      exact ⟨a, b, hright hab, hcross⟩
  | mixed =>
    obtain ⟨a, b, hab, hcross⟩ := h
    cases o' <;> exact ⟨a, b, hleft hab, hcross⟩

/-- Transfers from blocks that are reached change nothing. -/
theorem Meets.behind (h : Meets F loop q after o)
    (hp : ∀ a b, p.Leads a b → F.Reached a ∧ b ≠ after ∧ ¬ Loop.Ends loop b) :
    Meets F loop (p ++ q) after o := by
  cases o with
  | falls =>
    refine ⟨h.1, fun a b hab => ?_⟩
    exact (leads_append.1 hab).elim (fun hab => ⟨(hp a b hab).1, (hp a b hab).2.2⟩) (h.2 a b)
  | stops =>
    obtain ⟨⟨a, ha⟩, hnot, hall⟩ := h
    refine ⟨⟨a, leads_append.2 (.inr ha)⟩, fun c hc => ?_, fun c b hcb hb => ?_⟩
    · exact (leads_append.1 hc).elim (fun hc => ((hp c after hc).2.1 rfl).elim) (hnot c)
    · exact (leads_append.1 hcb).elim (fun hcb => .inl (hp c b hcb).1) (hall c b · hb)
  | mixed =>
    obtain ⟨a, b, hab, hcross⟩ := h
    exact ⟨a, b, leads_append.2 (.inr hab), hcross⟩

/-- The block where parts meet, if only they pass control to it. -/
theorem Meets.flows (h : Meets F loop p after o)
    (honly : F.Reached after → ∃ a, F.Reached a ∧ p.Leads a after) : Flows F loop p after o := by
  cases o with
  | stops =>
    obtain ⟨-, hnot, hall⟩ := h
    have hafter : ¬ F.Reached after := fun hr => by
      obtain ⟨a, ha, hlead⟩ := honly hr
      exact hnot a hlead ha
    refine ⟨hafter, fun a b hab hb => (hall a b hab hb).imp_right fun hends => ?_⟩
    exact hends.resolve_right fun hba => hafter (hba ▸ hb)
  | _ => exact h

/-- One part after another. -/
theorem Flows.append {mid : BlockId} (h : Flows F loop p mid o)
    (hreached : F.Reached mid → Flows F loop q last o')
    (hunreached : ¬ F.Reached mid →
      ¬ F.Reached last ∧ ∀ a b, q.Leads a b → F.Reached b → Loop.Ends loop b) :
    Flows F loop (p ++ q) last (o.andThen o') := by
  cases o with
  | falls =>
    obtain ⟨hmid, hall⟩ := h
    have hnext := hreached hmid
    cases o' with
    | falls =>
      refine ⟨hnext.1, fun a b hab => ?_⟩
      exact (leads_append.1 hab).elim (hall a b) (hnext.2 a b)
    | stops =>
      refine ⟨hnext.1, fun a b hab hb => ?_⟩
      exact (leads_append.1 hab).elim (fun hab => .inl (hall a b hab).1) (hnext.2 a b · hb)
    | mixed =>
      obtain ⟨a, b, hab, hcross⟩ := hnext
      exact ⟨a, b, leads_append.2 (.inr hab), hcross⟩
  | stops =>
    obtain ⟨hmid, hall⟩ := h
    obtain ⟨hlast, hends⟩ := hunreached hmid
    refine ⟨hlast, fun a b hab hb => ?_⟩
    exact (leads_append.1 hab).elim (hall a b · hb) (fun hab => .inr (hends a b hab hb))
  | mixed =>
    obtain ⟨a, b, hab, hcross⟩ := h
    exact ⟨a, b, leads_append.2 (.inl hab), hcross⟩

/-- A part in code that is not reached is not left but for the ends of the loop. -/
theorem Lies.unreached (h : Lies loop current fresh (p, last)) (hF : Standing F fresh p)
    (hfresh : 0 < fresh) (hcurrent : ¬ F.Reached current) :
    ¬ F.Reached last ∧ ∀ a b, p.Leads a b → F.Reached b → Loop.Ends loop b := by
  obtain ⟨hwithin, hlast, -⟩ := h
  have hown {b : BlockId} (h1 : fresh ≤ b) (h2 : b < p.next fresh) : ¬ F.Reached b :=
    hF.unreached hwithin hfresh (fun a ha => by rwa [ha]) h1 h2
  refine ⟨?_, fun a b hab hb => (hwithin.enters b hab.enters).resolve_right fun hin => hown hin.1 hin.2 hb⟩
  rcases hlast with hlast | hlast
  · exact fun hr => hcurrent (hlast ▸ hr)
  · exact hown hlast.1 hlast.2

/-! ## Simple statements and jumps -/

/-- Blocks opened before are numbered below the first free number. -/
structure Room (loop : Option Loop) (current fresh : BlockId) : Prop where
  nonneg : 0 ≤ current
  lt : current < fresh
  ends : ∀ a, Loop.Ends loop a → a < fresh

theorem Room.later (h : Room loop current fresh) {c m : BlockId} (hc : 0 ≤ c) (hm : c < m)
    (hle : fresh ≤ m) : Room loop c m :=
  ⟨hc, hm, fun a ha => Int.lt_of_lt_of_le (h.ends a ha) hle⟩

/-- Blocks that open are no ends of the loop. -/
theorem Room.not_ends (h : Room loop current fresh) {a : BlockId} (ha : fresh ≤ a) :
    ¬ Loop.Ends loop a := fun hends => by
  have := h.ends a hends
  lia

/-- Wherever a laid out part stands and is reached, it is left the way an outflow says. -/
def Judged (loop : Option Loop) (current fresh : BlockId) (laid : Laid) (o : Outflow) : Prop :=
  ∀ F, Standing F fresh laid.1 → F.Reached current → Flows F loop laid.1 laid.2 o

/-- A list of statements is left the way its outflow says, wherever it is laid out. -/
def AllJudged (loop : Option Loop) (body : List Stmt) : Prop :=
  ∀ current fresh, Room loop current fresh →
    Judged loop current fresh (layOutAll loop current fresh body) (allOutflow loop.isSome body)

theorem judged_places (s : Stmt) : Judged loop current fresh (places current s, current) .falls :=
  fun _ _ hcurrent => ⟨hcurrent, fun a b hab => by simp at hab⟩

theorem judged_nothing : Judged loop current fresh ({}, current) .falls :=
  fun _ _ hcurrent => ⟨hcurrent, fun a b hab => by simp at hab⟩

theorem judged_ret (h : Room loop current fresh) (span : Span) (value : Option Expr) :
    Judged loop current fresh (layOut loop current fresh (.at span (.ret value))) .stops := by
  intro F hF _
  have := h.nonneg
  have := h.lt
  have hnext : (layOut loop current fresh (.at span (.ret value))).1.next fresh = fresh + 1 := by
    simp [layOut, next_append]
  refine ⟨fun hr => ?_, fun a b hab => by simp [layOut] at hab⟩
  obtain ⟨a, -, ha⟩ := hF.exists_leads (b := fresh) (by lia) (Int.le_refl _) (by lia) hr
  simp [layOut] at ha

theorem judged_jump (h : Room loop current fresh) {target : BlockId} (htarget : Loop.Ends loop target)
    (kind : TransferKind) (line : Int) :
    Judged loop current fresh (passes current target kind ++ opens .body line, fresh) .stops := by
  intro F hF _
  have := h.nonneg
  have := h.lt
  have hlt := h.ends target htarget
  have hnext : (passes current target kind ++ opens .body line).next fresh = fresh + 1 := by
    simp [next_append]
  refine ⟨fun hr => ?_, fun a b hab _ => .inr ?_⟩
  · obtain ⟨a, -, ha⟩ := hF.exists_leads (b := fresh) (by lia) (Int.le_refl _) (by dsimp only; lia) hr
    simp at ha
    lia
  · simp at hab
    rwa [hab.2]

/-! ## Statements one after another -/

/-- Both of two parts that stand in a whole together stand in it, if they enter no
blocks of each other. -/
theorem Fragment.Standing.split (hF : Standing F fresh (p ++ q)) (h : Room loop current fresh)
    (hp : ∀ a, p.Enters a → Loop.Ends loop a ∨ (fresh ≤ a ∧ a < p.next fresh))
    (hq : ∀ a, q.Enters a → Loop.Ends loop a ∨ (p.next fresh ≤ a ∧ a < q.next (p.next fresh))) :
    Standing F fresh p ∧ Standing F (p.next fresh) q := by
  have hpn := p.le_next fresh
  have hqn := q.le_next (p.next fresh)
  have hnext := next_append p q fresh
  constructor
  · refine hF.part (Int.le_refl _) (by lia) (fun a b hab => leads_append.2 (.inl hab)) fun a b h1 h2 hab => ?_
    refine (leads_append.1 hab).resolve_right fun hab => ?_
    rcases hq b hab.enters with hends | hin
    · exact h.not_ends h1 hends
    · lia
  · refine hF.part hpn (by lia) (fun a b hab => leads_append.2 (.inr hab)) fun a b h1 h2 hab => ?_
    refine (leads_append.1 hab).resolve_left fun hab => ?_
    rcases hp b hab.enters with hends | hin
    · exact h.not_ends (by lia) hends
    · lia

theorem allJudged_nil : AllJudged loop [] := fun _ _ _ => judged_nothing

theorem allJudged_cons {s : Stmt} {rest : List Stmt}
    (hs : ∀ current fresh, Room loop current fresh →
      Judged loop current fresh (layOut loop current fresh s) (s.outflow loop.isSome))
    (hrest : AllJudged loop rest) : AllJudged loop (s :: rest) := by
  intro current fresh h
  have hlt := h.lt
  have hnonneg := h.nonneg
  cases hf : layOut loop current fresh s with
  | mk f mid =>
    obtain ⟨⟨-, hfe⟩, hfl, -⟩ := hf ▸ layOut_lies loop s current fresh hlt
    have hfn := f.le_next fresh
    dsimp only at hfe hfl
    cases hg : layOutAll loop mid (f.next fresh) rest with
    | mk g last =>
      have hgl := hg ▸ layOutAll_lies loop rest mid (f.next fresh) (by lia)
      have hgn := g.le_next (f.next fresh)
      have hroom : Room loop mid (f.next fresh) := h.later (by lia) (by lia) hfn
      intro F hF hcurrent
      simp only [layOutAll, hf, hg] at hF ⊢
      obtain ⟨hfF, hgF⟩ := hF.split h hfe hgl.within.enters
      have hfirst := (hf ▸ hs current fresh h) F hfF hcurrent
      exact hfirst.append ((hg ▸ hrest mid (f.next fresh) hroom) F hgF)
        (hgl.unreached hgF (by lia))

/-! ## Parts that meet -/

/-- A laid out part whose end passes control to a block outside of it. -/
theorem Judged.meets {c m : BlockId} {b : Fragment} {bodyEnd : BlockId}
    (h : Judged loop c m (b, bodyEnd) o) (hlies : Lies loop c m (b, bodyEnd)) (hF : Standing F m b)
    (hc : F.Reached c) (hpass : F.Leads bodyEnd after) (hends : ¬ Loop.Ends loop after)
    (hout : after < m ∨ b.next m ≤ after) (kind : TransferKind) (text : Option String) :
    Meets F loop (b ++ passes bodyEnd after kind text) after o := by
  refine (h F hF hc).meets (fun hr => hr.tail hpass) (fun a ha => ?_) hends kind text
  rcases hlies.within.enters after ha.enters with hafter | hafter
  · exact hends hafter
  · dsimp only at hafter
    lia

theorem elsePart_meets {before : BlockId} (kind : TransferKind) (text : Option String)
    {orelse : List Stmt} (horelse : AllJudged loop orelse) (hroom : Room loop before fresh)
    (hafter : after < fresh) (hends : ¬ Loop.Ends loop after) (F : Fragment)
    (hF : Standing F fresh (elsePart loop before after fresh kind text orelse))
    (hbefore : F.Reached before) :
    Meets F loop (elsePart loop before after fresh kind text orelse) after
      (allOutflow loop.isSome orelse) := by
  cases orelse with
  | nil =>
    have hpass : (elsePart loop before after fresh kind text []).Leads before after := by simp [elsePart]
    refine ⟨hF.reached hpass hbefore, fun a b hab => ?_⟩
    obtain ⟨rfl, rfl⟩ := leads_passes.1 hab
    exact ⟨hbefore, hends⟩
  | cons s rest =>
    have hnonneg := hroom.nonneg
    have hlt := hroom.lt
    have hroom' : Room loop fresh (fresh + 1) := hroom.later (by lia) (by lia) (by lia)
    cases ho : layOutAll loop fresh (fresh + 1) (s :: rest) with
    | mk b last =>
      have hol := ho ▸ layOutAll_lies loop (s :: rest) fresh (fresh + 1) (by lia)
      have hbn := b.le_next (fresh + 1)
      simp only [elsePart, ho] at hF ⊢
      have hb : Standing F (fresh + 1) b := by
        refine hF.part (by lia) ?_ (fun a c hac => by simp [hac]) fun a c h1 h2 hac => ?_
        · simp only [next_append, next_opens, next_passes]
          lia
        · simp at hac
          grind
      have hfresh : F.Reached fresh := hF.reached (a := before) (by simp) hbefore
      have hmeets := (ho ▸ horelse fresh (fresh + 1) hroom').meets hol hb hfresh
        (hF.kept last after (by simp)) hends (.inl (by lia)) .unconditional none
      rw [append_assoc]
      refine hmeets.behind fun a c hac => ?_
      obtain ⟨rfl, rfl⟩ : a = before ∧ c = fresh := by simpa using hac
      exact ⟨hbefore, by lia, hroom.not_ends (Int.le_refl _)⟩

/-! ## Statements with parts -/

theorem judged_ifElse (h : Room loop current fresh) (span : Span) (test : Expr) {body orelse : List Stmt}
    (hbody : AllJudged loop body) (horelse : AllJudged loop orelse) :
    Judged loop current fresh (layOut loop current fresh (.at span (.ifElse test body orelse)))
      ((allOutflow loop.isSome body).meet (allOutflow loop.isSome orelse)) := by
  have hlt := h.lt
  have hnonneg := h.nonneg
  cases hb : layOutAll loop fresh (fresh + 2) body with
  | mk b bodyEnd =>
    have hbl := hb ▸ layOutAll_lies loop body fresh (fresh + 2) (by lia)
    have hbj := hb ▸ hbody fresh (fresh + 2) (h.later (by lia) (by lia) (by lia))
    have hbn := b.le_next (fresh + 2)
    have hbe := hbl.within.enters
    have hbend := hbl.last
    dsimp only at hbe hbend
    rw [layOut_ifElse span test orelse hb]
    obtain ⟨-, hoe⟩ := elsePart_within current (fresh + 1) (b.next (fresh + 2)) .whenFalse
      (some (negated (conditionText test))) (layOutAll_lies loop orelse)
    have hoj := elsePart_meets .whenFalse (some (negated (conditionText test))) horelse
      (h.later hnonneg (by lia) (by lia) : Room loop current (b.next (fresh + 2)))
      (by lia : fresh + 1 < b.next (fresh + 2)) (h.not_ends (by lia))
    generalize elsePart loop current (fresh + 1) (b.next (fresh + 2)) .whenFalse
      (some (negated (conditionText test))) orelse = o at hoe hoj ⊢
    have hon := o.le_next (b.next (fresh + 2))
    have hnot := fun a => h.not_ends (a := a)
    intro F hF hcurrent
    have hbF : Standing F (fresh + 2) b := by
      refine hF.part (by lia) ?_ (fun a c hac => by simp [hac]) fun a c h1 h2 hac => ?_
      · simp [next_append, Int.add_assoc]
        lia
      · simp at hac
        grind
    have hoF : Standing F (b.next (fresh + 2)) o := by
      refine hF.part (by lia) ?_ (fun a c hac => by simp [hac]) fun a c h1 h2 hac => ?_
      · simp [next_append, Int.add_assoc]
      · simp at hac
        grind
    have hthen : F.Reached fresh := hF.reached (a := current) (by simp) hcurrent
    have hmeet := (hbj.meets hbl hbF hthen (hF.kept bodyEnd (fresh + 1) (by simp)) (hnot _ (by lia))
      (.inl (by lia)) .unconditional none).append (hoj F hoF hcurrent)
    have hbehind := hmeet.behind (p := passes current fresh .whenTrue none) fun a c hac => by
      obtain ⟨rfl, rfl⟩ := leads_passes.1 hac
      exact ⟨hcurrent, by lia, hnot _ (Int.le_refl _)⟩
    refine ((Meets.congr fun a c => ?_).1 hbehind).flows
      (hF.exists_leads (by lia) (by lia) ?_)
    · simp [or_assoc]
    · simp [next_append, Int.add_assoc]
      lia

theorem judged_loop (h : Room loop current fresh) (header : Stmt) (links : LoopLinks) (span : Span)
    (bodyLine : Int) {body orelse : List Stmt} (hbody : ∀ inner, AllJudged (some inner) body)
    (horelse : AllJudged loop orelse) :
    Judged loop current fresh
      (layOutLoop header links span bodyLine (orelse.head?.map (·.span.firstLine))
        (fun inner c f => layOutAll (some inner) c f body) (fun _ c f => layOutAll loop c f orelse)
        current fresh)
      ((allOutflow true body).turning (allOutflow loop.isSome orelse)) := by
  have hlt := h.lt
  have hnonneg := h.nonneg
  have hnot := fun a => h.not_ends (a := a)
  have hends : ∀ a, Loop.Ends (some ⟨fresh, fresh + 1⟩) a ↔ a = fresh ∨ a = fresh + 1 := by
    simp [Loop.Ends]
  have hinner : Room (some ⟨fresh, fresh + 1⟩) (fresh + 2) (fresh + 3) :=
    ⟨by lia, by lia, fun a ha => by rw [hends] at ha; lia⟩
  cases hb : layOutAll (some ⟨fresh, fresh + 1⟩) (fresh + 2) (fresh + 3) body with
  | mk b bodyEnd =>
    have hbl := hb ▸ layOutAll_lies (some ⟨fresh, fresh + 1⟩) body (fresh + 2) (fresh + 3) (by lia)
    have hbj := hb ▸ hbody ⟨fresh, fresh + 1⟩ (fresh + 2) (fresh + 3) hinner
    have hbn := b.le_next (fresh + 3)
    have hbe := hbl.within.enters
    simp only [hends] at hbe
    rw [layOutLoop_eq header links span bodyLine orelse hb]
    obtain ⟨-, hoe⟩ := elsePart_within fresh (fresh + 1) (b.next (fresh + 3)) links.leave
      links.leaveText (layOutAll_lies loop orelse)
    have hoj := elsePart_meets links.leave links.leaveText horelse
      (h.later (by lia) (by lia) (by lia) : Room loop fresh (b.next (fresh + 3)))
      (by lia : fresh + 1 < b.next (fresh + 3)) (hnot _ (by lia))
    generalize elsePart loop fresh (fresh + 1) (b.next (fresh + 3)) links.leave links.leaveText
      orelse = o at hoe hoj ⊢
    have hon := o.le_next (b.next (fresh + 3))
    intro F hF hcurrent
    have hbF : Standing F (fresh + 3) b := by
      refine hF.part (by lia) ?_ (fun a c hac => by simp [hac]) fun a c h1 h2 hac => ?_
      · simp [next_append, Int.add_assoc]
        lia
      · simp at hac
        grind
    have hoF : Standing F (b.next (fresh + 3)) o := by
      refine hF.part (by lia) ?_ (fun a c hac => by simp [hac]) fun a c h1 h2 hac => ?_
      · simp [next_append, Int.add_assoc]
      · simp at hac
        grind
    have hguard : F.Reached fresh := hF.reached (a := current) (by simp) hcurrent
    have hstart : F.Reached (fresh + 2) := hF.reached (a := fresh) (by simp) hguard
    have hflows := hbj F hbF hstart
    cases ho : allOutflow true body with
    | falls =>
      simp only [Option.isSome_some, ho] at hflows
      obtain ⟨hbend, hall⟩ := hflows
      -- the body goes through its end only, so what leaves the loop leaves it at the test
      have hbehind := (hoj F hoF hguard).behind (p := passes current fresh .unconditional none
          ++ passes fresh (fresh + 2) .whenTrue none ++ b ++ passes bodyEnd fresh .backEdge none)
        fun a c hac => by
          simp only [leads_append, leads_passes, or_assoc] at hac
          rcases hac with ⟨rfl, rfl⟩ | ⟨rfl, rfl⟩ | hac | ⟨rfl, rfl⟩
          · exact ⟨hcurrent, by lia, hnot _ (Int.le_refl _)⟩
          · exact ⟨hguard, by lia, hnot _ (by lia)⟩
          · obtain ⟨ha, hc⟩ := hall a c hac
            have hin := (hbe c hac.enters).resolve_left fun hc' => hc ((hends c).2 hc')
            exact ⟨ha, by lia, hnot _ (by lia)⟩
          · exact ⟨hbend, by lia, hnot _ (Int.le_refl _)⟩
      refine ((Meets.congr fun a c => ?_).1 hbehind).flows
        (hF.exists_leads (by lia) (by lia) ?_)
      · simp
      · simp [next_append, Int.add_assoc]
        lia
    | stops =>
      -- the end of the body leads back to the guard
      simp only [Option.isSome_some, ho] at hflows
      exact ⟨bodyEnd, fresh, by simp, hflows.1, hguard⟩
    | mixed =>
      simp only [Option.isSome_some, ho] at hflows
      obtain ⟨a, c, hac, hcross⟩ := hflows
      exact ⟨a, c, by simp [hac], hcross⟩

theorem judged_with (h : Room loop current fresh) (span : Span) (isAsync : Bool) (items : List WithItem)
    {body : List Stmt} (hbody : AllJudged loop body) :
    Judged loop current fresh (layOut loop current fresh (.at span (.withItems isAsync items body)))
      (allOutflow loop.isSome body) := by
  cases hb : layOutAll loop current fresh body with
  | mk b bodyEnd =>
    rw [layOut_withItems span isAsync items hb]
    intro F hF hcurrent
    have hbF : Standing F fresh b :=
      hF.part (Int.le_refl _) (by simp [next_append]) (fun a c hac => by simp [hac])
        fun a c _ _ hac => by simpa using hac
    have hbj := (hb ▸ hbody current fresh h) F hbF hcurrent
    exact (Flows.congr fun a c => by simp).1 hbj

/-! ## Handlers and cases -/

/-- A part in a block of its own that control enters from blocks that are reached, and
that meets with others. -/
theorem Meets.branch {e b r : Fragment} {bodyEnd : BlockId} (hr : Meets F loop r after o')
    (hb : Judged loop fresh (fresh + 1) (b, bodyEnd) o) (hlies : Lies loop fresh (fresh + 1) (b, bodyEnd))
    (hbF : Standing F (fresh + 1) b) (hfresh : F.Reached fresh) (hpass : F.Leads bodyEnd after)
    (hafter : after < fresh) (hends : ¬ Loop.Ends loop after) (hnot : ¬ Loop.Ends loop fresh)
    (he : ∀ a c, e.Leads a c → F.Reached a ∧ c = fresh) :
    Meets F loop (e ++ (b ++ passes bodyEnd after .unconditional none ++ r)) after (o.meet o') := by
  refine ((hb.meets hlies hbF hfresh hpass hends (.inl (by lia)) .unconditional none).append hr).behind
    fun a c hac => ?_
  obtain ⟨ha, rfl⟩ := he a c hac
  exact ⟨ha, by lia, hnot⟩

/-- Handlers whose `try` body is reached at its end are left the way their outflow says. -/
def HandlersJudged (loop : Option Loop) (handlers : List Handler) : Prop :=
  ∀ before bodyEnd after fresh F q o, Room loop before fresh → bodyEnd < fresh → after < fresh →
    ¬ Loop.Ends loop after → Standing F fresh (layOutHandlers loop before bodyEnd after fresh handlers) →
    F.Reached before → F.Reached bodyEnd → Meets F loop q after o →
    Meets F loop (layOutHandlers loop before bodyEnd after fresh handlers ++ q) after
      (handlersOutflow loop.isSome o handlers)

theorem handlersJudged_nil : HandlersJudged loop [] :=
  fun _ _ _ _ _ _ _ _ _ _ _ _ _ _ hq => (Meets.congr fun a b => by simp [layOutHandlers]).1 hq

theorem handlersJudged_cons (span : Span) (type : Option Expr) (name : Option String)
    {body : List Stmt} {rest : List Handler} (hbody : AllJudged loop body)
    (hrest : HandlersJudged loop rest) : HandlersJudged loop (.at span type name body :: rest) := by
  intro before bodyEnd after fresh F q o h hend hafter hends hF hbefore hbodyEnd hq
  have hlt := h.lt
  have hnonneg := h.nonneg
  have hnot := fun a => h.not_ends (a := a)
  cases hb : layOutAll loop fresh (fresh + 1) body with
  | mk b last =>
    have hbl := hb ▸ layOutAll_lies loop body fresh (fresh + 1) (by lia)
    have hbj := hb ▸ hbody fresh (fresh + 1) (h.later (by lia) (by lia) (by lia))
    have hbn := b.le_next (fresh + 1)
    have hbe := hbl.within.enters
    dsimp only at hbe
    have hre := (layOutHandlers_lie loop rest before bodyEnd after (b.next (fresh + 1)) (by lia)
      (by lia)).enters
    have hrj := hrest before bodyEnd after (b.next (fresh + 1)) F q o
      (h.later hnonneg (by lia) (by lia)) (by lia) (by lia) hends
    rw [layOutHandlers_cons before bodyEnd after span type name rest hb] at hF ⊢
    generalize layOutHandlers loop before bodyEnd after (b.next (fresh + 1)) rest = r at hre hrj hF ⊢
    have hrn := r.le_next (b.next (fresh + 1))
    have hbF : Standing F (fresh + 1) b := by
      refine hF.part (by lia) ?_ (fun a c hac => by simp [hac]) fun a c h1 h2 hac => ?_
      · simp [next_append]
        lia
      · simp at hac
        grind
    have hrF : Standing F (b.next (fresh + 1)) r := by
      refine hF.part (by lia) ?_ (fun a c hac => by simp [hac]) fun a c h1 h2 hac => ?_
      · simp [next_append]
      · simp at hac
        grind
    have hfresh : F.Reached fresh := hF.reached (a := before) (by simp) hbefore
    have hbranch := (hrj hrF hbefore hbodyEnd hq).branch hbj hbl hbF hfresh
      (hF.kept last after (by simp)) hafter hends (hnot _ (Int.le_refl _))
      (e := passes before fresh .error none ++ passes bodyEnd fresh .error none) fun a c hac => by
        rcases leads_append.1 hac with hac | hac <;> obtain ⟨rfl, rfl⟩ := leads_passes.1 hac
        · exact ⟨hbefore, rfl⟩
        · exact ⟨hbodyEnd, rfl⟩
    exact (Meets.congr fun a c => by simp [or_assoc]).1 hbranch

/-- Cases are left the way their outflow says. -/
def CasesJudged (loop : Option Loop) (cases : List Case) : Prop :=
  ∀ branch after fresh F q o, Room loop branch fresh → after < fresh → ¬ Loop.Ends loop after →
    Standing F fresh (layOutCases loop branch after fresh cases) → F.Reached branch →
    Meets F loop q after o →
    Meets F loop (layOutCases loop branch after fresh cases ++ q) after
      (casesOutflow loop.isSome o cases)

theorem casesJudged_nil : CasesJudged loop [] :=
  fun _ _ _ _ _ _ _ _ _ _ _ hq => (Meets.congr fun a b => by simp [layOutCases]).1 hq

theorem casesJudged_cons (p : Code.Pattern) (guard : Option Expr) {body : List Stmt} {rest : List Case}
    (hbody : AllJudged loop body) (hrest : CasesJudged loop rest) :
    CasesJudged loop (.of p guard body :: rest) := by
  intro branch after fresh F q o h hafter hends hF hbranch hq
  have hlt := h.lt
  have hnonneg := h.nonneg
  have hnot := fun a => h.not_ends (a := a)
  cases hb : layOutAll loop fresh (fresh + 1) body with
  | mk b last =>
    have hbl := hb ▸ layOutAll_lies loop body fresh (fresh + 1) (by lia)
    have hbj := hb ▸ hbody fresh (fresh + 1) (h.later (by lia) (by lia) (by lia))
    have hbn := b.le_next (fresh + 1)
    have hbe := hbl.within.enters
    dsimp only at hbe
    have hre := (layOutCases_lie loop rest branch after (b.next (fresh + 1)) (by lia)).enters
    have hrj := hrest branch after (b.next (fresh + 1)) F q o
      (h.later hnonneg (by lia) (by lia)) (by lia) hends
    simp only [layOutCases, hb, next_append, next_decides, next_opens, next_passes] at hF ⊢
    generalize layOutCases loop branch after (b.next (fresh + 1)) rest = r at hre hrj hF ⊢
    have hrn := r.le_next (b.next (fresh + 1))
    have hbF : Standing F (fresh + 1) b := by
      refine hF.part (by lia) ?_ (fun a c hac => by simp [hac]) fun a c h1 h2 hac => ?_
      · simp [next_append]
        lia
      · simp at hac
        grind
    have hrF : Standing F (b.next (fresh + 1)) r := by
      refine hF.part (by lia) ?_ (fun a c hac => by simp [hac]) fun a c h1 h2 hac => ?_
      · simp [next_append]
      · simp at hac
        grind
    have hfresh : F.Reached fresh := hF.reached (a := branch) (by simp) hbranch
    have hmeet := (hrj hrF hbranch hq).branch hbj hbl hbF hfresh (hF.kept last after (by simp)) hafter
      hends (hnot _ (Int.le_refl _)) (e := passes branch fresh .case none) fun a c hac => by
        obtain ⟨rfl, rfl⟩ := leads_passes.1 hac
        exact ⟨hbranch, rfl⟩
    exact (Meets.congr fun a c => by simp [or_assoc]).1 hmeet

theorem judged_match (h : Room loop current fresh) (span : Span) (subject : Expr) {cases : List Case}
    (hcases : CasesJudged loop cases) :
    Judged loop current fresh (layOut loop current fresh (.at span (.matchCases subject cases)))
      (casesOutflow loop.isSome .falls cases) := by
  have hlt := h.lt
  have hnonneg := h.nonneg
  have hnot := fun a => h.not_ends (a := a)
  have hce := (layOutCases_lie loop cases current fresh (fresh + 1) (by lia)).enters
  intro F hF hcurrent
  have hcj := hcases current fresh (fresh + 1) F (passes current fresh .whenFalse none) .falls
    (h.later hnonneg (by lia) (by lia)) (by lia) (hnot _ (Int.le_refl _))
  simp only [layOut] at hF ⊢
  generalize layOutCases loop current fresh (fresh + 1) cases = c at hce hcj hF ⊢
  have hcn := c.le_next (fresh + 1)
  have hcF : Standing F (fresh + 1) c := by
    refine hF.part (by lia) ?_ (fun a b hab => by simp [hab]) fun a b h1 h2 hab => ?_
    · simp [next_append]
    · simp at hab
      grind
  have hfresh : F.Reached fresh := hF.reached (a := current) (by simp) hcurrent
  have hmeets := hcj hcF hcurrent ⟨hfresh, fun a b hab => by
    obtain ⟨rfl, rfl⟩ := leads_passes.1 hab
    exact ⟨hcurrent, hnot _ (Int.le_refl _)⟩⟩
  refine ((Meets.congr fun a b => ?_).1 hmeets).flows (hF.exists_leads (by lia) (by lia) ?_)
  · simp
  · simp [next_append]
    lia

/-- A `try` statement without its `finally` part. -/
theorem try_flows {b hs o : Fragment} {bodyEnd : BlockId} {handlers : List Handler} {orelse : List Stmt}
    {ob : Outflow} (h : Room loop current fresh) (hafter : b.next (fresh + 1) = after)
    (hhs : layOutHandlers loop current bodyEnd after (after + 1) handlers = hs)
    (ho : elsePart loop bodyEnd after (hs.next (after + 1)) .unconditional none orelse = o)
    (hbl : Lies loop fresh (fresh + 1) (b, bodyEnd)) (hbj : Judged loop fresh (fresh + 1) (b, bodyEnd) ob)
    (hhandlers : HandlersJudged loop handlers) (horelse : AllJudged loop orelse) (line line' : Int)
    (hF : Standing F fresh (opens .body line ++ passes current fresh .unconditional ++ b
      ++ opens .body line' ++ hs ++ o)) (hcurrent : F.Reached current) :
    Flows F loop (opens .body line ++ passes current fresh .unconditional ++ b ++ opens .body line'
        ++ hs ++ o) after
      (ob.guarded (!handlers.isEmpty) (handlersOutflow loop.isSome (allOutflow loop.isSome orelse) handlers)) := by
  have hlt := h.lt
  have hnonneg := h.nonneg
  have hnot := fun a => h.not_ends (a := a)
  have hbn := b.le_next (fresh + 1)
  have hbend := hbl.last
  have hbe := hbl.within.enters
  dsimp only at hbend hbe
  have hhe := (hhs ▸ layOutHandlers_lie loop handlers current bodyEnd after (after + 1) (by lia)
    (by lia)).enters
  have hhn := hs.le_next (after + 1)
  have how := ho ▸ elsePart_within bodyEnd after (hs.next (after + 1)) .unconditional none
    (layOutAll_lies loop orelse)
  have hoe := how.enters
  have hon := o.le_next (hs.next (after + 1))
  have hnext : (opens .body line ++ passes current fresh .unconditional ++ b ++ opens .body line'
      ++ hs ++ o).next fresh = o.next (hs.next (after + 1)) := by
    simp [next_append, hafter]
  have hbF : Standing F (fresh + 1) b := by
    refine hF.part (by lia) (by lia) (fun a c hac => by simp [hac]) fun a c h1 h2 hac => ?_
    simp at hac
    grind
  have hhF : Standing F (after + 1) hs := by
    refine hF.part (by lia) (by lia) (fun a c hac => by simp [hac]) fun a c h1 h2 hac => ?_
    simp at hac
    grind
  have hoF : Standing F (hs.next (after + 1)) o := by
    refine hF.part (by lia) (by lia) (fun a c hac => by simp [hac]) fun a c h1 h2 hac => ?_
    simp at hac
    grind
  have hfresh : F.Reached fresh := hF.reached (a := current) (by simp) hcurrent
  have hflows := hbj F hbF hfresh
  have honly := hF.exists_leads (b := after) (by lia) (by lia) (by lia)
  cases ob with
  | falls =>
    obtain ⟨hend, hall⟩ := hflows
    have helse := elsePart_meets .unconditional none horelse
      (h.later (by lia) (by lia) (by lia) : Room loop bodyEnd (hs.next (after + 1)))
      (by lia : after < hs.next (after + 1)) (hnot _ (by lia)) F (ho ▸ hoF) hend
    have hmeet := hhandlers current bodyEnd after (after + 1) F _ _ (h.later hnonneg (by lia) (by lia))
      (by lia) (by lia) (hnot _ (by lia)) (hhs ▸ hhF) hcurrent hend helse
    rw [hhs, ho] at hmeet
    have hbehind := hmeet.behind (p := passes current fresh .unconditional none ++ b) fun a c hac => by
      rcases leads_append.1 hac with hac | hac
      · obtain ⟨rfl, rfl⟩ := leads_passes.1 hac
        exact ⟨hcurrent, by lia, hnot _ (Int.le_refl _)⟩
      · obtain ⟨ha, hc⟩ := hall a c hac
        have hin := (hbe c hac.enters).resolve_left hc
        exact ⟨ha, by lia, hc⟩
    exact ((Meets.congr fun a c => by simp [or_assoc]).1 hbehind).flows honly
  | stops =>
    obtain ⟨hend, hall⟩ := hflows
    cases handlers with
    | cons handler rest =>
      -- a handler is entered from the statement before too
      obtain ⟨span, type, name, body⟩ := handler
      have hin : hs.Leads current (after + 1) ∧ hs.Leads bodyEnd (after + 1) := by
        rw [← hhs, layOutHandlers_cons current bodyEnd after span type name rest rfl]
        simp
      exact ⟨bodyEnd, after + 1, by simp [hin.2], hend, hhF.reached hin.1 hcurrent⟩
    | nil =>
      obtain rfl : {} = hs := hhs
      have houter : ∀ a, a = bodyEnd → ¬ F.Reached a := fun a ha => by rwa [ha]
      have hunreached : ∀ a c, o.Leads a c → ¬ F.Reached a := fun a c =>
        hoF.unreached_of_leads how (by lia) houter
      have hmerge : ¬ F.Reached after := fun hr => by
        obtain ⟨a, ha, hac⟩ := honly hr
        simp at hac
        grind
      refine ⟨hmerge, fun a c hac hc => ?_⟩
      simp at hac
      rcases hac with (⟨rfl, rfl⟩ | hac) | hac
      · exact .inl hcurrent
      · exact hall a c hac hc
      · rcases hoe c hac.enters with (hends | rfl) | hin
        · exact .inr hends
        · exact absurd hc hmerge
        · exact absurd hc (hoF.unreached how (by lia) houter hin.1 hin.2)
  | mixed =>
    obtain ⟨a, c, hac, hcross⟩ := hflows
    have hguarded : Outflow.mixed.guarded (!handlers.isEmpty)
        (handlersOutflow loop.isSome (allOutflow loop.isSome orelse) handlers) = .mixed := by
      cases handlers <;> rfl
    rw [hguarded]
    exact ⟨a, c, by simp [hac], hcross⟩

theorem judged_try (h : Room loop current fresh) (span : Span) (isGroup : Bool) {body : List Stmt}
    {handlers : List Handler} {orelse finalbody : List Stmt} (hbody : AllJudged loop body)
    (hhandlers : HandlersJudged loop handlers) (horelse : AllJudged loop orelse)
    (hfinal : AllJudged loop finalbody) :
    Judged loop current fresh
      (layOut loop current fresh (.at span (.tryBlock isGroup body handlers orelse finalbody)))
      (((allOutflow loop.isSome body).guarded (!handlers.isEmpty)
        (handlersOutflow loop.isSome (allOutflow loop.isSome orelse) handlers)).andThen
          (allOutflow loop.isSome finalbody)) := by
  have hlt := h.lt
  have hnonneg := h.nonneg
  have hnot := fun a => h.not_ends (a := a)
  cases hb : layOutAll loop fresh (fresh + 1) body with
  | mk b bodyEnd =>
    have hbl := hb ▸ layOutAll_lies loop body fresh (fresh + 1) (by lia)
    have hbj := hb ▸ hbody fresh (fresh + 1) (h.later (by lia) (by lia) (by lia))
    have hbn := b.le_next (fresh + 1)
    have hbend := hbl.last
    have hbe := hbl.within.enters
    dsimp only at hbend hbe
    generalize hafter : b.next (fresh + 1) = after at hbn hbend hbe
    rw [layOut_tryBlock span isGroup handlers orelse finalbody hb hafter]
    generalize hhs : layOutHandlers loop current bodyEnd after (after + 1) handlers = hs
    have hhe := (hhs ▸ layOutHandlers_lie loop handlers current bodyEnd after (after + 1) (by lia)
      (by lia)).enters
    have hhn := hs.le_next (after + 1)
    dsimp only
    generalize ho : elsePart loop bodyEnd after (hs.next (after + 1)) .unconditional none orelse = o
    have hoe := (ho ▸ elsePart_within bodyEnd after (hs.next (after + 1)) .unconditional none
      (layOutAll_lies loop orelse)).enters
    have hon := o.le_next (hs.next (after + 1))
    cases hf : layOutAll loop after (o.next (hs.next (after + 1))) finalbody with
    | mk f finalEnd =>
      have hfl := hf ▸ layOutAll_lies loop finalbody after (o.next (hs.next (after + 1))) (by lia)
      have hfj := hf ▸ hfinal after (o.next (hs.next (after + 1))) (h.later (by lia) (by lia) (by lia))
      intro F hF hcurrent
      dsimp only at hF ⊢
      have hnext : (opens .body (startLine body span.firstLine) ++ passes current fresh .unconditional
          ++ b ++ opens .body span.lastLine ++ hs ++ o).next fresh = o.next (hs.next (after + 1)) := by
        simp [next_append, hafter]
      have hfe := hfl.within.enters
      obtain ⟨hpF, hfF⟩ := hF.split h
        (fun a ha => by rw [hnext]; simp at ha; grind)
        (fun a ha => by rw [hnext]; exact hfe a ha)
      rw [hnext] at hfF
      exact (try_flows h hafter hhs ho hbl hbj hhandlers horelse _ _ hpF hcurrent).append (hfj F hfF)
        (hfl.unreached hfF (by lia))

mutual

/-- **A statement is left the way its outflow says**, wherever it is laid out. -/
theorem layOut_judged (loop : Option Loop) : ∀ (s : Stmt) (current fresh : BlockId),
    Room loop current fresh → Judged loop current fresh (layOut loop current fresh s) (s.outflow loop.isSome)
  | .at span form, current, fresh, h => by
    cases form with
    | ifElse test body orelse =>
      exact judged_ifElse h span test (layOutAll_judged loop body) (layOutAll_judged loop orelse)
    | whileLoop test body orelse =>
      simp only [layOut]
      exact judged_loop h _ _ span _ (fun inner => layOutAll_judged (some inner) body)
        (layOutAll_judged loop orelse)
    | forLoop isAsync target iter body orelse =>
      simp only [layOut]
      exact judged_loop h _ _ span _ (fun inner => layOutAll_judged (some inner) body)
        (layOutAll_judged loop orelse)
    | withItems isAsync items body =>
      exact judged_with h span isAsync items (layOutAll_judged loop body)
    | tryBlock isGroup body handlers orelse finalbody =>
      exact judged_try h span isGroup (layOutAll_judged loop body) (layOutHandlers_judged loop handlers)
        (layOutAll_judged loop orelse) (layOutAll_judged loop finalbody)
    | matchCases subject cases => exact judged_match h span subject (layOutCases_judged loop cases)
    | ret value => exact judged_ret h span value
    | breakLoop =>
      cases loop with
      | none => exact judged_nothing
      | some l => exact judged_jump h ⟨l, rfl, .inr rfl⟩ .breakOut span.firstLine
    | continueLoop =>
      cases loop with
      | none => exact judged_nothing
      | some l => exact judged_jump h ⟨l, rfl, .inl rfl⟩ .continueLoop span.firstLine
    | _ => exact judged_places _

theorem layOutAll_judged (loop : Option Loop) : ∀ body : List Stmt, AllJudged loop body
  | [] => allJudged_nil
  | s :: rest => allJudged_cons (layOut_judged loop s) (layOutAll_judged loop rest)

theorem layOutHandlers_judged (loop : Option Loop) : ∀ handlers : List Handler,
    HandlersJudged loop handlers
  | [] => handlersJudged_nil
  | .at span type name body :: rest =>
    handlersJudged_cons span type name (layOutAll_judged loop body) (layOutHandlers_judged loop rest)

theorem layOutCases_judged (loop : Option Loop) : ∀ cases : List Case, CasesJudged loop cases
  | [] => casesJudged_nil
  | .of p guard body :: rest =>
    casesJudged_cons p guard (layOutAll_judged loop body) (layOutCases_judged loop rest)

end

end Reaching
