/-
What a finished analysis has recorded: exactly the definitions that arrive.

No block waits when an analysis without a budget ends, so its records solve the
equations of arrival, and being right they hold nothing else
(`Graph.Linked.records_exact`). The record of a block then is what the records
in front of it give. That a visit starts from the block's own record too adds
nothing to it, although it adds to what a visit finds on the way. Since paths
do not care for the order of the blocks, records do not either.
-/
import Reaching.Proofs.Termination

namespace Reaching

open Relation

variable {sites : List Site}

/-! ## Paths and the order of blocks -/

/-- Paths depend on which blocks there are, not on their order. -/
theorem ClearStep.mono {other : List Site} (hsub : ∀ b ∈ sites, b ∈ other) {name : Text} {p q : Point}
    (h : ClearStep sites name p q) : ClearStep other name p q := by
  cases h with
  | statement hb he hclear => exact .statement (hsub _ hb) he hclear
  | link hb hj => exact .link (hsub _ hb) hj

theorem ArrivesFrom.mono {other : List Site} (hsub : ∀ b ∈ sites, b ∈ other) {origin : Span}
    {r : Reference} {p : Point} (h : ArrivesFrom sites origin r p) : ArrivesFrom other origin r p := by
  obtain ⟨b, hb, i, e, he, ho, hmakes, hpath⟩ := h
  exact ⟨b, hsub b hb, i, e, he, ho, hmakes, ReflTransGen.mono (fun _ _ hs => hs.mono hsub) _ _ hpath⟩

theorem Arrives.mono {other : List Site} (hsub : ∀ b ∈ sites, b ∈ other) {r : Reference} {p : Point}
    (h : Arrives sites r p) : Arrives other r p := by
  obtain ⟨origin, harr⟩ := h
  exact ⟨origin, harr.mono hsub⟩

theorem Chain.mono {other : List Site} (hsub : ∀ b ∈ sites, b ∈ other) {x : Edge}
    (h : Chain sites x) : Chain other x := by
  obtain ⟨r, b, hb, i, e, he, huse, ht, harr⟩ := h
  exact ⟨r, b, hsub b hb, i, e, he, huse, ht, harr.mono hsub⟩

theorem arrives_congr {other : List Site} (hsame : ∀ b, b ∈ sites ↔ b ∈ other) {r : Reference}
    {p : Point} : Arrives sites r p ↔ Arrives other r p :=
  ⟨Arrives.mono fun b => (hsame b).1, Arrives.mono fun b => (hsame b).2⟩

theorem Graph.Linked.of_perm {g g' : Graph} (h : g.Linked) (hperm : g'.blocks.Perm g.blocks) :
    g'.Linked where
  distinct := (hperm.map _).nodup_iff.2 h.distinct
  resolved := by
    intro a ha i hi
    obtain ⟨b, hb, hid⟩ := h.resolved a (hperm.mem_iff.1 ha) i hi
    exact ⟨b, hperm.mem_iff.2 hb, hid⟩
  agree := fun a ha b hb => h.agree a (hperm.mem_iff.1 ha) b (hperm.mem_iff.1 hb)

theorem Graph.mem_sites_of_perm {g g' : Graph} (hperm : g'.blocks.Perm g.blocks) (rules : Rules)
    (b : Site) : b ∈ g'.sites rules ↔ b ∈ g.sites rules := by
  rw [Graph.mem_sites, Graph.mem_sites]
  exact exists_congr fun a => and_congr_left fun _ => hperm.mem_iff

/-! ## Records of a finished analysis -/

namespace Session

/-- **A block's own record adds nothing to a right record**: what the records in
front of the block give is all of it. -/
theorem Sound.mem_record_iff_merged (h : Linked sites) {s : Session} (hs : s.Sound sites)
    (hagrees : ∀ b ∈ sites, s.Agrees b) {b : Site} (hb : b ∈ sites) {r : Reference} :
    r ∈ (s.record b.id).identities ↔ r ∈ (outgoing b.effects (s.merged b.preds [])).identities := by
  refine ⟨fun hr => ?_, (hagrees b hb).mem_of_finds⟩
  obtain ⟨origin, harr⟩ := (hs.mem_record_iff h hagrees hb).1 hr
  have hfound := finds_of_arrivesFrom h hagrees harr b hb rfl
  rwa [Site.bottom, List.take_length] at hfound

end Session

/-- **A fresh analysis ends with right records that all agree.** -/
theorem Linked.exists_finished (h : Linked sites) :
    ∃ places s, Run sites (.fresh sites) (List.range sites.length) places s [] ∧
      analyze sites none (.fresh sites) = .ok (s, ⟨places.length, false⟩) ∧
      s.Sound sites ∧ ∀ b ∈ sites, s.Agrees b := by
  obtain ⟨places, s, hrun, -, hok⟩ := exists_run h.resolved Session.fresh_bounded
  exact ⟨places, s, hrun, hok, hrun.sound h Session.fresh_sound,
    fun _ => hrun.agrees h Session.fresh_sound⟩

/-- A fresh analysis ends, and a block's record then holds what arrives at its end. -/
theorem Linked.exists_exact (h : Linked sites) :
    ∃ s o, analyze sites none (.fresh sites) = .ok (s, o) ∧
      ∀ b ∈ sites, ∀ r, r ∈ (s.record b.id).identities ↔ Arrives sites r b.bottom := by
  obtain ⟨places, s, -, hok, hs, hagrees⟩ := h.exists_finished
  exact ⟨s, _, hok, fun b hb r => hs.mem_record_iff h hagrees hb⟩

/-- **Records are exact.** On blocks whose links fit together an analysis without
a budget ends, and the record of every block holds the identities of just those
definitions that arrive at its end from some statement. A visit finds the same
with the block's own record and without it. Blocks in another order have the
same records. -/
theorem Graph.Linked.records_exact {g : Graph} (hg : g.Linked) (rules : Rules) :
    ∃ s o, analyze (g.sites rules) none (.fresh (g.sites rules)) = .ok (s, o) ∧
      (∀ b ∈ g.blocks, ∀ r,
        (r ∈ (s.record b.id).identities ↔
          Arrives (g.sites rules) r ⟨b.id, b.statements.length⟩) ∧
        (r ∈ (s.record b.id).identities ↔
          r ∈ (outgoing (b.site rules).effects (s.merged b.preds (s.record b.id))).identities) ∧
        (r ∈ (s.record b.id).identities ↔
          r ∈ (outgoing (b.site rules).effects (s.merged b.preds [])).identities)) ∧
      ∀ g' : Graph, g'.blocks.Perm g.blocks →
        ∃ s' o', analyze (g'.sites rules) none (.fresh (g'.sites rules)) = .ok (s', o') ∧
          ∀ b ∈ g.blocks, ∀ r, r ∈ (s'.record b.id).identities ↔ r ∈ (s.record b.id).identities := by
  have h := hg.sites rules
  obtain ⟨places, s, -, hok, hs, hagrees⟩ := h.exists_finished
  have hexact : ∀ b ∈ g.blocks, ∀ r, r ∈ (s.record b.id).identities ↔
      Arrives (g.sites rules) r ⟨b.id, b.statements.length⟩ := by
    intro b hb r
    have := hs.mem_record_iff h hagrees (Graph.site_mem_sites hb rules) (r := r)
    rwa [Block.site_bottom] at this
  refine ⟨s, _, hok, fun b hb r => ⟨hexact b hb r, ?_, ?_⟩, fun g' hperm => ?_⟩
  · exact hagrees _ (Graph.site_mem_sites hb rules) r
  · exact hs.mem_record_iff_merged h hagrees (Graph.site_mem_sites hb rules)
  · have hsame := Graph.mem_sites_of_perm hperm rules
    obtain ⟨s', o', hok', hexact'⟩ := ((hg.of_perm hperm).sites rules).exists_exact
    refine ⟨s', o', hok', fun b hb r => ?_⟩
    have hsite := Graph.site_mem_sites hb rules
    have := hexact' _ ((hsame _).2 hsite) r
    rw [arrives_congr hsame, Block.site_bottom] at this
    exact this.trans (hexact b hb r).symm

open Code in
/-- A name is bound in front of a loop and bound again in its only block, which
reads it. -/
def Graph.rebinding : Graph :=
  let x (line : Int) : Expr := .at ⟨line, 0, line, 1⟩ (.name "x")
  let assign (line : Int) (value : Expr) : Stmt := .at ⟨line, 0, line, 5⟩ (.assign [x line] value)
  { name := "rebinding"
    blocks :=
      [{ id := 0, statements := [some (assign 1 (.at ⟨1, 4, 1, 5⟩ (.constant .nothing)))], succs := [1] },
       { id := 1, statements := [some (assign 2 (x 3))], preds := [0, 1], succs := [1] }] }

theorem Graph.rebinding_linked : Graph.rebinding.Linked where
  distinct := by decide
  resolved := by simp [Graph.rebinding]
  agree := by simp [Graph.rebinding]

/-- The hypothesis of `records_exact` holds of a graph with a loop. -/
theorem Graph.rebinding_records_exact :
    Graph.rebinding.Linked ∧
      ∃ s o, analyze (Graph.rebinding.sites .default) none (.fresh (Graph.rebinding.sites .default))
          = .ok (s, o) ∧
        ∀ r, r ∈ (s.record 1).identities ↔ Arrives (Graph.rebinding.sites .default) r ⟨1, 1⟩ := by
  obtain ⟨s, o, hok, hexact, -⟩ := Graph.Linked.records_exact Graph.rebinding_linked .default
  exact ⟨Graph.rebinding_linked, s, o, hok,
    fun r => (hexact _ (List.mem_cons_of_mem _ (List.mem_cons_self ..)) r).1⟩

end Reaching
