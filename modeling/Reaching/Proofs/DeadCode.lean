/-
Whether code behind a jump stays apart from the code that runs.

No block that is reached from the entry has a predecessor that is not, just when the
outflow of the body is not mixed (`Graph.ofBody_apart_iff`). Where this is so, nothing
that dead code makes is ever recorded for code that runs: a visit merges the records of
the predecessors only (`Session.Apart`).
-/
import Reaching.Proofs.Calls
import Reaching.Proofs.Outflow

namespace Reaching

open Code Fragment Relation

/-! ## Whole bodies -/

/-- Control comes to a block of a graph from its entry. -/
def Graph.Reached (g : Graph) (i : BlockId) : Prop :=
  ReflTransGen (fun a j => ∃ b ∈ g.blocks, b.id = a ∧ j ∈ b.succs) g.entry i

theorem Fragment.toGraph_reached {F : Fragment} (name : String) (last : BlockId)
    (hin : ∀ a b, F.Leads a b → 0 ≤ a ∧ a < F.next 0) {i : BlockId} :
    (F.toGraph name last).Reached i ↔ F.Reached i := by
  have hstep : (fun a j => ∃ b ∈ (F.toGraph name last).blocks, b.id = a ∧ j ∈ b.succs) = F.Leads := by
    funext a j
    refine propext ⟨?_, fun hlead => ?_⟩
    · rintro ⟨b, hb, rfl, hj⟩
      obtain ⟨n, o, -, rfl⟩ := mem_blocks.1 hb
      exact mem_successors.1 hj
    · obtain ⟨b, hb, rfl⟩ := exists_block name last (hin a j hlead)
      obtain ⟨n, o, -, rfl⟩ := mem_blocks.1 hb
      exact ⟨_, hb, rfl, mem_successors.2 hlead⟩
  rw [Graph.Reached, Fragment.Reached, hstep]
  exact Iff.rfl

/-- A whole layout leads from code that is not reached to code that is just when its
outflow is mixed. -/
theorem Flows.apart_iff {F p : Fragment} {last : BlockId} {o : Outflow} (h : Flows F none p last o) :
    (∀ a b, p.Leads a b → F.Reached b → F.Reached a) ↔ o ≠ .mixed := by
  cases o with
  | falls => simpa using fun a b hab _ => (h.2 a b hab).1
  | stops =>
    have hnone : ∀ b, ¬ Loop.Ends none b := by simp [Loop.Ends]
    simpa using fun a b hab hb => (h.2 a b hab hb).resolve_right (hnone b)
  | mixed =>
    obtain ⟨a, b, hab, ha, hb⟩ := h
    simpa using ⟨a, b, hab, hb, ha⟩

/-- **Where dead code stays apart**: no block that is reached has a predecessor that is
not, just when the outflow of the body is not mixed. -/
theorem Graph.ofBody_apart_iff (name : String) (line : Int) (bindings body : List Stmt) :
    (∀ b ∈ (Graph.ofBody name line bindings body).blocks,
      (Graph.ofBody name line bindings body).Reached b.id →
        ∀ i ∈ b.preds, (Graph.ofBody name line bindings body).Reached i) ↔
      allOutflow false body ≠ .mixed := by
  cases hf : layOutAll none 0 1 body with
  | mk f last =>
    have hlies := hf ▸ layOutAll_lies none body 0 1 (by decide)
    have hroom : Room none 0 1 := ⟨by decide, by decide, by simp [Loop.Ends]⟩
    rw [Graph.ofBody_eq name line bindings hf]
    have hin := fun a b => hlies.leads_inside line bindings (a := a) (b := b)
    generalize hF : (opens .entry line).placing 0 bindings ++ f = F at hin ⊢
    have hleads : ∀ a b, F.Leads a b ↔ f.Leads a b := by simp [← hF]
    have hstanding : Standing F 1 f := ⟨fun a b => (hleads a b).2, fun a b hab _ _ => (hleads a b).1 hab⟩
    have hflows := (hf ▸ layOutAll_judged none body 0 1 hroom) F hstanding .refl
    rw [Option.isSome_none] at hflows
    rw [← hflows.apart_iff]
    simp only [toGraph_reached name last fun a b hab => (hin a b hab).1]
    constructor
    · intro h a b hab hb
      have hab := (hleads a b).2 hab
      obtain ⟨x, hx, rfl⟩ := exists_block name last (hin a b hab).2
      obtain ⟨n, o, -, rfl⟩ := mem_blocks.1 hx
      exact h _ hx hb a (mem_predecessors.2 hab)
    · intro h x hx hr i hi
      obtain ⟨n, o, -, rfl⟩ := mem_blocks.1 hx
      exact h i _ ((hleads i _).1 (mem_predecessors.1 hi)) hr

/-! ## Definitions that dead code makes -/

/-- A definition is made in a block of some kind. -/
def MadeWithin (sites : List Site) (P : BlockId → Prop) (d : Definition) : Prop :=
  ∃ a ∈ sites, P a.id ∧ ∃ e ∈ a.effects, d ∈ e.definitions

namespace Session

variable {sites : List Site} {P : BlockId → Prop}

/-- What is recorded for blocks of some kind, and what their statements read, is made in
blocks of that kind. -/
structure Apart (sites : List Site) (P : BlockId → Prop) (s : Session) : Prop where
  records : ∀ b ∈ sites, P b.id → ∀ d ∈ s.record b.id, MadeWithin sites P d
  edges : ∀ x ∈ s.edges, ∃ b ∈ sites, ∃ e ∈ b.effects, e.span = x.target ∧
    ∃ d, d.owner.span = x.source ∧ d.name ∈ e.uses ∧ (P b.id → MadeWithin sites P d)

theorem fresh_apart : (fresh sites).Apart sites P where
  records := fun b _ _ d hd => by rw [fresh_record] at hd; cases hd
  edges := fun x hx => nomatch hx

theorem Apart.madeWithin_start (hres : Resolved sites) (hclosed : ∀ b ∈ sites, P b.id → ∀ i ∈ b.preds, P i)
    {s : Session} (hs : s.Apart sites P) {b : Site} (hb : b ∈ sites) (hP : P b.id) {d : Definition}
    (hd : d ∈ s.start b) : MadeWithin sites P d := by
  rcases mem_of_mem_merged hd with hd | ⟨i, hi, hd⟩
  · exact hs.records b hb hP d hd
  · obtain ⟨a, ha, rfl⟩ := hres b hb i (.inl hi)
    exact hs.records a ha (hclosed b hb hP a.id hi) d hd

theorem Apart.madeWithin_outgoing (hres : Resolved sites)
    (hclosed : ∀ b ∈ sites, P b.id → ∀ i ∈ b.preds, P i) {s : Session} (hs : s.Apart sites P) {b : Site}
    (hb : b ∈ sites) (hP : P b.id) {effects : List Effect} (heffects : ∀ e ∈ effects, e ∈ b.effects)
    {d : Definition} (hd : d ∈ outgoing effects (s.start b)) : MadeWithin sites P d := by
  rcases mem_of_mem_outgoing hd with hd | ⟨e, he, hd⟩
  · exact hs.madeWithin_start hres hclosed hb hP hd
  · exact ⟨b, hb, hP, e, heffects e he, hd⟩

/-- **A visit keeps apart** what no link brings together. -/
theorem Apart.visited (hres : Resolved sites) (hclosed : ∀ b ∈ sites, P b.id → ∀ i ∈ b.preds, P i)
    {s : Session} (hcov : s.Covers sites) (hs : s.Apart sites P) {b : Site} (hb : b ∈ sites) :
    (s.visited b).Apart sites P where
  records := fun a ha hP d hd => by
    by_cases hid : a.id = b.id
    · rw [hid] at hd hP
      rcases record_visited_self hcov hb with ⟨-, hrec⟩ | ⟨-, hrec⟩ <;> rw [hrec] at hd
      · exact hs.records b hb hP d hd
      · exact hs.madeWithin_outgoing hres hclosed hb hP (fun _ he => he) hd
    · rw [record_visited_of_ne hid] at hd
      exact hs.records a ha hP d hd
  edges := fun x hx => by
    rcases mem_edges_visited.1 hx with hx | hx
    · exact hs.edges x hx
    · obtain ⟨i, e, he, hxe⟩ := mem_edgesAlong.1 hx
      obtain ⟨d, hd, huse, rfl⟩ := Effect.mem_edges.1 hxe
      exact ⟨b, hb, e, List.mem_of_getElem? he, rfl, d, rfl, huse, fun hP =>
        hs.madeWithin_outgoing hres hclosed hb hP (fun _ hf => List.mem_of_mem_take hf) hd⟩

/-- Whatever is called, what no link brings together stays apart. -/
theorem Later.apart (hres : Resolved sites) (hclosed : ∀ b ∈ sites, P b.id → ∀ i ∈ b.preds, P i)
    {s t : Session} (hl : Later sites s t) (hcov : s.Covers sites) (hs : s.Apart sites P) :
    t.Apart sites P :=
  (hl.keeps (P := fun t => t.Covers sites ∧ t.Apart sites P)
    (fun hb hs => ⟨hs.1.visited _, hs.2.visited hres hclosed hs.1 hb⟩) ⟨hcov, hs⟩).2

end Session

/-- **When dead code never feeds live code.** No block that is reached from the entry has
a predecessor that is not, just when the outflow of the body is not mixed. Then, after
any calls of the analysis with any budgets, what is recorded for blocks that are reached
and what their statements read has been made in blocks that are reached. -/
theorem Graph.dead_code_apart_iff (name : String) (line : Int) (bindings body : List Stmt) :
    let g := Graph.ofBody name line bindings body
    ((∀ b ∈ g.blocks, g.Reached b.id → ∀ i ∈ b.preds, g.Reached i) ↔ allOutflow false body ≠ .mixed) ∧
      (allOutflow false body ≠ .mixed → ∀ (rules : Rules) (budgets : List (Option Int)),
        ∃ s, analyzeAll (g.sites rules) budgets (.fresh (g.sites rules)) = .ok s ∧
          s.Apart (g.sites rules) g.Reached) := by
  intro g
  have hiff := Graph.ofBody_apart_iff name line bindings body
  refine ⟨hiff, fun hpure rules budgets => ?_⟩
  have hres := ((Graph.ofBody_linked name line bindings body).sites rules).resolved
  have hclosed : ∀ b ∈ g.sites rules, g.Reached b.id → ∀ i ∈ b.preds, g.Reached i := by
    intro s hs
    obtain ⟨b, hb, rfl⟩ := Graph.mem_sites.1 hs
    exact hiff.2 hpure b hb
  obtain ⟨s, hok, hlater⟩ := exists_analyzeAll hres budgets Session.fresh_covers
  exact ⟨s, hok, hlater.apart hres hclosed Session.fresh_covers Session.fresh_apart⟩

/-- A function with a parameter `c` that returns in both branches:

    def f(c):
        if c:
            return 0
        else:
            return 1
        x = c
-/
def bothReturn : List Stmt :=
  let c (line column : Int) : Expr := .at ⟨line, column, line, column + 1⟩ (.name "c")
  let int (line column : Int) (value : Nat) : Expr :=
    .at ⟨line, column, line, column + 1⟩ (.constant (.int value))
  [.at ⟨2, 4, 5, 16⟩ (.ifElse (c 2 7) [.at ⟨3, 8, 3, 16⟩ (.ret (int 3 15 0))]
      [.at ⟨5, 8, 5, 16⟩ (.ret (int 5 15 1))]),
    .at ⟨6, 4, 6, 9⟩ (.assign [.at ⟨6, 4, 6, 5⟩ (.name "x")] (c 6 8))]

/-- A function with a parameter `c` that binds a name behind a `return` in one branch:

    def f(c):
        if c:
            return 0
            x = 1
        return x
-/
def returnThenBound : List Stmt :=
  let x (line column : Int) : Expr := .at ⟨line, column, line, column + 1⟩ (.name "x")
  let int (line column : Int) (value : Nat) : Expr :=
    .at ⟨line, column, line, column + 1⟩ (.constant (.int value))
  [.at ⟨2, 4, 4, 13⟩ (.ifElse (.at ⟨2, 7, 2, 8⟩ (.name "c"))
      [.at ⟨3, 8, 3, 16⟩ (.ret (int 3 15 0)), .at ⟨4, 8, 4, 13⟩ (.assign [x 4 8] (int 4 12 1))] []),
    .at ⟨5, 4, 5, 12⟩ (.ret (x 5 11))]

/-- The graph of a function `f` with a parameter `c`. -/
def Graph.ofC (body : List Stmt) : Graph :=
  Graph.ofBody "f" 1 [parameterBinding (.at ⟨1, 6, 1, 7⟩ "c" none none)] body

/-- The outflow of a body with two blocks behind a `return` is not mixed. -/
theorem Graph.bothReturn_dead_code_apart :
    allOutflow false bothReturn ≠ .mixed ∧
      (∀ b ∈ (Graph.ofC bothReturn).blocks, (Graph.ofC bothReturn).Reached b.id →
        ∀ i ∈ b.preds, (Graph.ofC bothReturn).Reached i) ∧
      ∃ s, analyzeAll ((Graph.ofC bothReturn).sites .default) [some 1, none]
          (.fresh ((Graph.ofC bothReturn).sites .default)) = .ok s ∧
        s.Apart ((Graph.ofC bothReturn).sites .default) (Graph.ofC bothReturn).Reached := by
  have hpure : allOutflow false bothReturn ≠ .mixed := by decide
  obtain ⟨hiff, hcalls⟩ := Graph.dead_code_apart_iff "f" 1
    [parameterBinding (.at ⟨1, 6, 1, 7⟩ "c" none none)] bothReturn
  exact ⟨hpure, hiff.2 hpure, hcalls hpure .default [some 1, none]⟩

/-- **Dead code that feeds live code.** The block behind the `return` leads to the block
that returns `x`, which is reached from the test. The analysis finds an edge from the
binding that never runs. -/
theorem Graph.returnThenBound_dead_code_feeds :
    (∃ b ∈ (Graph.ofC returnThenBound).blocks, (Graph.ofC returnThenBound).Reached b.id ∧
        ∃ i ∈ b.preds, ¬ (Graph.ofC returnThenBound).Reached i) ∧
      ∃ s o, analyze ((Graph.ofC returnThenBound).sites .empty) none
          (.fresh ((Graph.ofC returnThenBound).sites .empty)) = .ok (s, o) ∧
        ⟨⟨4, 8, 4, 13⟩, ⟨5, 4, 5, 12⟩⟩ ∈ s.edges := by
  constructor
  · have hmerge : ∃ b ∈ (Graph.ofC returnThenBound).blocks, b.id = 2 ∧ 3 ∈ b.preds := by decide +kernel
    have hentry : ∃ b ∈ (Graph.ofC returnThenBound).blocks, b.id = 0 ∧ 2 ∈ b.succs := by decide +kernel
    have hnone : ∀ b ∈ (Graph.ofC returnThenBound).blocks, 3 ∉ b.succs := by decide +kernel
    obtain ⟨b, hb, hid, hpred⟩ := hmerge
    refine ⟨b, hb, hid ▸ .single hentry, 3, hpred, fun hr => ?_⟩
    rcases hr.cases_tail with hzero | ⟨a, -, c, hc, -, hsucc⟩
    · cases hzero
    · exact hnone c hc hsucc
  · have hfound : (analyze ((Graph.ofC returnThenBound).sites .empty) none
        (.fresh ((Graph.ofC returnThenBound).sites .empty))).toOption.map (fun r => r.1.edges) =
        some [⟨⟨1, 6, 1, 7⟩, ⟨2, 7, 2, 8⟩⟩, ⟨⟨4, 8, 4, 13⟩, ⟨5, 4, 5, 12⟩⟩] := by decide +kernel
    cases hok : analyze ((Graph.ofC returnThenBound).sites .empty) none
        (.fresh ((Graph.ofC returnThenBound).sites .empty)) with
    | error e => simp [hok, Except.toOption] at hfound
    | ok r =>
      obtain ⟨s, o⟩ := r
      have hedges : s.edges = [⟨⟨1, 6, 1, 7⟩, ⟨2, 7, 2, 8⟩⟩, ⟨⟨4, 8, 4, 13⟩, ⟨5, 4, 5, 12⟩⟩] := by
        simpa [hok, Except.toOption] using hfound
      exact ⟨s, o, rfl, by simp [hedges]⟩

end Reaching
