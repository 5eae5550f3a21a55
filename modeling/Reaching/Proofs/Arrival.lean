/-
Where definitions arrive: paths through the blocks of a graph on which a name
is not defined again.

A path runs from point to point. A point lies in front of a statement or at the
end of a block; the next point lies behind the statement, or at the top of a
block to which a link leads. A definition arrives at a point if such a path
leads there from just after the statement that makes it, past no statement that
defines its name (`ArrivesFrom`). A statement in front of which it arrives and
that reads its name is the end of a def-use chain (`Chain`).

`arrivesFrom_succ` and `arrivesFrom_top` say how arrival passes a statement and
a link. They are the equations that the analysis solves.
-/
import Mathlib.Data.List.Nodup
import Mathlib.Logic.Relation
import Reaching.Proofs.Replay

namespace Reaching

open Relation

/-! ## Graphs whose links fit together -/

/-- Every link of a block leads to some block. -/
def Resolved (sites : List Site) : Prop :=
  ∀ a ∈ sites, ∀ i, i ∈ a.preds ∨ i ∈ a.succs → ∃ b ∈ sites, b.id = i

/-- Blocks with numbers of their own, with links that lead to blocks, each of
them known at both of its ends. -/
structure Linked (sites : List Site) : Prop where
  distinct : (sites.map (·.id)).Nodup
  resolved : Resolved sites
  agree : ∀ a ∈ sites, ∀ b ∈ sites, b.id ∈ a.succs ↔ a.id ∈ b.preds

theorem Linked.eq_of_id {sites : List Site} (h : Linked sites) {a b : Site} (ha : a ∈ sites)
    (hb : b ∈ sites) (hid : a.id = b.id) : a = b :=
  List.inj_on_of_nodup_map h.distinct ha hb hid

/-- Every link of a graph leads to some block. -/
def Graph.Resolved (g : Graph) : Prop :=
  ∀ a ∈ g.blocks, ∀ i, i ∈ a.preds ∨ i ∈ a.succs → ∃ b ∈ g.blocks, b.id = i

/-- The blocks of a graph have numbers of their own, and its links lead to
blocks and are known at both of their ends. -/
structure Graph.Linked (g : Graph) : Prop where
  distinct : (g.blocks.map (·.id)).Nodup
  resolved : ∀ a ∈ g.blocks, ∀ i, i ∈ a.preds ∨ i ∈ a.succs → ∃ b ∈ g.blocks, b.id = i
  agree : ∀ a ∈ g.blocks, ∀ b ∈ g.blocks, b.id ∈ a.succs ↔ a.id ∈ b.preds

/-- A block as the analysis sees it, with the effects of its statements. -/
def Block.site (rules : Rules) (b : Block) : Site :=
  ⟨b.id, b.statements.map (Effect.of rules), b.preds, b.succs⟩

theorem Graph.mem_sites {g : Graph} {rules : Rules} {s : Site} :
    s ∈ g.sites rules ↔ ∃ b ∈ g.blocks, s = b.site rules := by
  simp only [Graph.sites, Block.site, List.mem_map, eq_comm]

theorem Graph.site_mem_sites {g : Graph} {b : Block} (hb : b ∈ g.blocks) (rules : Rules) :
    b.site rules ∈ g.sites rules :=
  Graph.mem_sites.2 ⟨b, hb, rfl⟩

theorem Graph.Resolved.sites {g : Graph} (h : g.Resolved) (rules : Rules) :
    Reaching.Resolved (g.sites rules) := by
  intro s hs i hi
  obtain ⟨a, ha, rfl⟩ := Graph.mem_sites.1 hs
  obtain ⟨b, hb, rfl⟩ := h a ha i hi
  exact ⟨_, Graph.site_mem_sites hb rules, rfl⟩

theorem Graph.map_id_sites (g : Graph) (rules : Rules) :
    (g.sites rules).map (·.id) = g.blocks.map (·.id) := by
  simp [Graph.sites, List.map_map, Function.comp_def]

theorem Graph.Linked.sites {g : Graph} (h : g.Linked) (rules : Rules) :
    Reaching.Linked (g.sites rules) where
  distinct := by
    rw [Graph.map_id_sites]
    exact h.distinct
  resolved := Graph.Resolved.sites h.resolved rules
  agree := by
    intro s hs t ht
    obtain ⟨a, ha, rfl⟩ := Graph.mem_sites.1 hs
    obtain ⟨b, hb, rfl⟩ := Graph.mem_sites.1 ht
    exact h.agree a ha b hb

/-! ## Paths -/

/-- A point of a block: in front of the statement with an index, or behind the
last one. -/
structure Point where
  block : BlockId
  index : Nat
  deriving DecidableEq, Repr

/-- The point in front of the first statement. -/
def Site.top (b : Site) : Point := ⟨b.id, 0⟩

/-- The point behind the last statement. -/
def Site.bottom (b : Site) : Point := ⟨b.id, b.effects.length⟩

theorem Block.site_bottom (rules : Rules) (b : Block) :
    (b.site rules).bottom = ⟨b.id, b.statements.length⟩ := by
  simp [Site.bottom, Block.site]

variable {sites : List Site}

/-- Control passes from one point to the next: over a statement that does not
define a name, or along a link. -/
inductive ClearStep (sites : List Site) (name : Text) : Point → Point → Prop
  | statement {b : Site} {i : Nat} {e : Effect} : b ∈ sites → b.effects[i]? = some e →
      ¬ e.Defines name → ClearStep sites name ⟨b.id, i⟩ ⟨b.id, i + 1⟩
  | link {b : Site} {j : BlockId} : b ∈ sites → j ∈ b.succs →
      ClearStep sites name b.bottom ⟨j, 0⟩

/-- A definition that a statement with some span makes arrives at a point: a
path leads there from just after the statement, and nothing on it defines the
name. -/
def ArrivesFrom (sites : List Site) (origin : Span) (r : Reference) (p : Point) : Prop :=
  ∃ b ∈ sites, ∃ (i : Nat) (e : Effect), b.effects[i]? = some e ∧ e.span = origin ∧ e.Makes r ∧
    ReflTransGen (ClearStep sites r.name) ⟨b.id, i + 1⟩ p

/-- A definition that some statement makes arrives at a point. -/
def Arrives (sites : List Site) (r : Reference) (p : Point) : Prop :=
  ∃ origin, ArrivesFrom sites origin r p

/-- An edge is a def-use chain: a definition made at its source arrives in front
of a statement at its target that reads the name. -/
def Chain (sites : List Site) (x : Edge) : Prop :=
  ∃ (r : Reference), ∃ b ∈ sites, ∃ (i : Nat) (e : Effect), b.effects[i]? = some e ∧
    r.name ∈ e.uses ∧ e.span = x.target ∧ ArrivesFrom sites x.source r ⟨b.id, i⟩

/-! ## How arrival passes statements and links -/

theorem ArrivesFrom.step {origin : Span} {r : Reference} {p q : Point}
    (h : ArrivesFrom sites origin r p) (hs : ClearStep sites r.name p q) :
    ArrivesFrom sites origin r q := by
  obtain ⟨b, hb, i, e, he, ho, hm, hpath⟩ := h
  exact ⟨b, hb, i, e, he, ho, hm, hpath.tail hs⟩

/-- **What arrives behind a statement** is what it makes, and what arrives in
front of it of names that it does not define. -/
theorem arrivesFrom_succ (h : Linked sites) {b : Site} (hb : b ∈ sites) {i : Nat} {e : Effect}
    (he : b.effects[i]? = some e) {origin : Span} {r : Reference} :
    ArrivesFrom sites origin r ⟨b.id, i + 1⟩ ↔
      (e.span = origin ∧ e.Makes r) ∨ (ArrivesFrom sites origin r ⟨b.id, i⟩ ∧ ¬ e.Defines r.name) := by
  have same : ∀ {a : Site} {f : Effect}, a ∈ sites → a.effects[i]? = some f → a.id = b.id → f = e := by
    intro a f ha hf hid
    obtain rfl := h.eq_of_id ha hb hid
    exact Option.some.inj (hf.symm.trans he)
  constructor
  · rintro ⟨a, ha, k, f, hf, ho, hm, hpath⟩
    rcases hpath.cases_tail with heq | ⟨p, hpath, hstep⟩
    · obtain ⟨hid, hk⟩ : b.id = a.id ∧ i = k := by simpa using heq
      subst hk
      obtain rfl := same ha hf hid.symm
      exact .inl ⟨ho, hm⟩
    · generalize hq : Point.mk b.id (i + 1) = q at hstep
      cases hstep with
      | link => simp at hq
      | @statement c j f' hc hf' hfree =>
        obtain ⟨hid, hj⟩ : b.id = c.id ∧ i = j := by simpa using hq
        subst hj
        obtain rfl := same hc hf' hid.symm
        exact .inr ⟨⟨a, ha, k, f, hf, ho, hm, hid ▸ hpath⟩, hfree⟩
  · rintro (⟨ho, hm⟩ | ⟨harr, hfree⟩)
    · exact ⟨b, hb, i, e, he, ho, hm, .refl⟩
    · exact harr.step (.statement hb he hfree)

/-- **What arrives at the top of a block** is what arrives at the end of a block
from which a link leads there. -/
theorem arrivesFrom_top {b : Site} {origin : Span} {r : Reference} :
    ArrivesFrom sites origin r b.top ↔
      ∃ a ∈ sites, b.id ∈ a.succs ∧ ArrivesFrom sites origin r a.bottom := by
  constructor
  · rintro ⟨a, ha, k, f, hf, ho, hm, hpath⟩
    rcases hpath.cases_tail with heq | ⟨p, hpath, hstep⟩
    · simp [Site.top] at heq
    · generalize hq : b.top = q at hstep
      cases hstep with
      | statement => simp [Site.top] at hq
      | @link c j hc hj =>
        obtain rfl : b.id = j := by simpa [Site.top] using hq
        exact ⟨c, hc, hj, a, ha, k, f, hf, ho, hm, hpath⟩
  · rintro ⟨a, ha, hlink, harr⟩
    exact harr.step (.link ha hlink)

theorem arrives_succ (h : Linked sites) {b : Site} (hb : b ∈ sites) {i : Nat} {e : Effect}
    (he : b.effects[i]? = some e) {r : Reference} :
    Arrives sites r ⟨b.id, i + 1⟩ ↔ e.Makes r ∨ (Arrives sites r ⟨b.id, i⟩ ∧ ¬ e.Defines r.name) := by
  simp only [Arrives, arrivesFrom_succ h hb he, exists_or, exists_and_right, exists_eq', true_and]

theorem arrives_top {b : Site} {r : Reference} :
    Arrives sites r b.top ↔ ∃ a ∈ sites, b.id ∈ a.succs ∧ Arrives sites r a.bottom := by
  simp only [Arrives, arrivesFrom_top]
  constructor
  · rintro ⟨o, a, ha, hlink, harr⟩
    exact ⟨a, ha, hlink, o, harr⟩
  · rintro ⟨a, ha, hlink, o, harr⟩
    exact ⟨o, a, ha, hlink, harr⟩

theorem clear_take_succ {effects : List Effect} {i : Nat} {e : Effect} (he : effects[i]? = some e)
    {name : Text} :
    Clear (effects.take (i + 1)) name ↔ Clear (effects.take i) name ∧ ¬ e.Defines name := by
  rw [List.take_add_one, he]
  simp [Clear, or_imp, forall_and]

/-- **What arrives inside a block** is what its statements so far leave by
themselves, and what arrives at the top of names that they do not define. -/
theorem arrives_iff (h : Linked sites) {b : Site} (hb : b ∈ sites) {r : Reference} :
    ∀ {i : Nat}, i ≤ b.effects.length → (Arrives sites r ⟨b.id, i⟩ ↔
      r ∈ (outgoing (b.effects.take i) []).identities ∨
        (Arrives sites r b.top ∧ Clear (b.effects.take i) r.name))
  | 0, _ => by simp [outgoing, Definitions.identities, Site.top]
  | i + 1, hi => by
    have he : b.effects[i]? = some b.effects[i] := List.getElem?_eq_getElem hi
    rw [arrives_succ h hb he, arrives_iff h hb (Nat.le_of_succ_le hi), outgoing_take_succ he,
      Effect.mem_identities_apply, clear_take_succ he]
    simp only [or_and_right, or_assoc, and_assoc]

/-- What arrives at the end of a block. -/
theorem arrives_bottom (h : Linked sites) {b : Site} (hb : b ∈ sites) {r : Reference} :
    Arrives sites r b.bottom ↔ r ∈ (outgoing b.effects []).identities ∨
      (Arrives sites r b.top ∧ Clear b.effects r.name) := by
  have := arrives_iff h hb (r := r) (Nat.le_refl _)
  rwa [List.take_length] at this

/-- Replaying what arrives at the top gives only what arrives further down. -/
theorem arrives_of_mem_outgoing (h : Linked sites) {b : Site} (hb : b ∈ sites) {r : Reference}
    {ds : Definitions} (hds : r ∈ ds.identities → Arrives sites r b.top) {i : Nat}
    (hi : i ≤ b.effects.length) (hr : r ∈ (outgoing (b.effects.take i) ds).identities) :
    Arrives sites r ⟨b.id, i⟩ := by
  rw [mem_identities_outgoing] at hr
  exact (arrives_iff h hb hi).2 (hr.imp_right fun hr => ⟨hds hr.1, hr.2⟩)

end Reaching
