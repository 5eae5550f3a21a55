/-
What the edges mean after any calls of the analysis.

A visit starts from the block's own record too, as if a link led from the end of
the block to its top. Such links add nothing to what arrives at the ends of blocks:
what passes a block once more was at its end before (`arrivesFrom_bottom_selfLinked`).
But they lead from the end of a block to its statements (`arrivesFrom_selfLinked`), so
the def-use chains of the blocks with these links are the chains, and what the blocks
feed to themselves (`chain_selfLinked`).

A visit finds no other edges. A call without a budget finds the chains, and once it
has ended, every record holds what its block feeds to itself, so that the next one
finds that too. Then nothing is left to find (`Session.Exhausted`).
-/
import Reaching.Proofs.Order

namespace Reaching

open Relation

variable {sites : List Site}

/-! ## Links of blocks to themselves -/

/-- A block with a link to itself. -/
def Block.selfLinked (b : Block) : Block :=
  { b with preds := b.preds ++ [b.id], succs := b.succs ++ [b.id] }

/-- A graph with a link from every block to itself. -/
def Graph.selfLinked (g : Graph) : Graph := { g with blocks := g.blocks.map Block.selfLinked }

/-- A block with a link to itself, as the analysis sees it. -/
def Site.selfLinked (b : Site) : Site :=
  { b with preds := b.preds ++ [b.id], succs := b.succs ++ [b.id] }

theorem Graph.sites_selfLinked (g : Graph) (rules : Rules) :
    g.selfLinked.sites rules = (g.sites rules).map Site.selfLinked := by
  simp only [Graph.sites, Graph.selfLinked, List.map_map]
  rfl

/-- The links of blocks to themselves are the only new steps. -/
theorem clearStep_selfLinked {name : Text} {p q : Point} :
    ClearStep (sites.map Site.selfLinked) name p q ↔
      ClearStep sites name p q ∨ ∃ b ∈ sites, p = b.bottom ∧ q = b.top := by
  constructor
  · intro h
    cases h with
    | statement hmem he hclear =>
      obtain ⟨b, hb, rfl⟩ := List.mem_map.1 hmem
      exact .inl (.statement (b := b) hb he hclear)
    | link hmem hj =>
      obtain ⟨b, hb, rfl⟩ := List.mem_map.1 hmem
      rcases List.mem_append.1 hj with hj | hj
      · exact .inl (.link (b := b) hb hj)
      · obtain rfl := List.mem_singleton.1 hj
        exact .inr ⟨b, hb, rfl, rfl⟩
  · rintro (h | ⟨b, hb, rfl, rfl⟩)
    · cases h with
      | statement hb he hclear =>
        exact .statement (b := Site.selfLinked _) (List.mem_map_of_mem hb) he hclear
      | link hb hj =>
        exact .link (b := Site.selfLinked _) (List.mem_map_of_mem hb) (List.mem_append_left _ hj)
    · exact .link (b := b.selfLinked) (List.mem_map_of_mem hb)
        (List.mem_append_right _ (List.mem_singleton.2 rfl))

/-- **What arrives where blocks have links to themselves**: what arrives without
them, and inside a block what arrives at its end, as far as the name is not defined
from the top of the block on. -/
theorem arrivesFrom_selfLinked (h : Linked sites) {origin : Span} {r : Reference} {p : Point} :
    ArrivesFrom (sites.map Site.selfLinked) origin r p ↔ ArrivesFrom sites origin r p ∨
      ∃ b ∈ sites, ∃ i ≤ b.effects.length, p = ⟨b.id, i⟩ ∧ ArrivesFrom sites origin r b.bottom ∧
        Clear (b.effects.take i) r.name := by
  constructor
  · rintro ⟨c, hmem, k, f, hf, ho, hmakes, hpath⟩
    obtain ⟨a, ha, rfl⟩ := List.mem_map.1 hmem
    induction hpath with
    | refl => exact .inl ⟨a, ha, k, f, hf, ho, hmakes, .refl⟩
    | tail _ hstep ih =>
      rcases clearStep_selfLinked.1 hstep with hstep | ⟨b, hb, rfl, rfl⟩
      · rcases ih with harr | ⟨b, hb, i, hi, rfl, hend, hclear⟩
        · exact .inl (harr.step hstep)
        · generalize hp : Point.mk b.id i = p at hstep
          cases hstep with
          | @statement c j e hc he hfree =>
            obtain ⟨hid, rfl⟩ : b.id = c.id ∧ i = j := by simpa using hp
            obtain rfl := h.eq_of_id hb hc hid
            exact .inr ⟨b, hb, i + 1, (List.getElem?_eq_some_iff.1 he).1, rfl, hend,
              (clear_take_succ he).2 ⟨hclear, hfree⟩⟩
          | link hc hj =>
            -- the end of the block, where it arrives without going through the block again
            obtain ⟨hid, -⟩ : b.id = _ ∧ i = _ := by simpa [Site.bottom] using hp
            obtain rfl := h.eq_of_id hb hc hid
            exact .inl (hend.step (.link hc hj))
      · refine .inr ⟨b, hb, 0, Nat.zero_le _, rfl, ?_, by simp⟩
        rcases ih with harr | ⟨c, hc, i, hi, hp, hend, -⟩
        · exact harr
        · obtain ⟨hid, -⟩ : b.id = c.id ∧ b.effects.length = i := by simpa [Site.bottom] using hp
          obtain rfl := h.eq_of_id hb hc hid
          exact hend
  · have mono : ∀ {p : Point}, ArrivesFrom sites origin r p →
        ArrivesFrom (sites.map Site.selfLinked) origin r p := by
      rintro p ⟨a, ha, k, f, hf, ho, hmakes, hpath⟩
      exact ⟨_, List.mem_map_of_mem ha, k, f, hf, ho, hmakes,
        ReflTransGen.mono (fun _ _ hs => clearStep_selfLinked.2 (.inl hs)) _ _ hpath⟩
    rintro (harr | ⟨b, hb, i, hi, rfl, hend, hclear⟩)
    · exact mono harr
    · induction i with
      | zero => exact (mono hend).step (clearStep_selfLinked.2 (.inr ⟨b, hb, rfl, rfl⟩))
      | succ i ih =>
        have he : b.effects[i]? = some b.effects[i] := List.getElem?_eq_getElem hi
        obtain ⟨hclear, hfree⟩ := (clear_take_succ he).1 hclear
        exact (ih (Nat.le_of_succ_le hi) hclear).step
          (clearStep_selfLinked.2 (.inl (.statement hb he hfree)))

/-- Links of blocks to themselves add nothing to what arrives at the ends of blocks. -/
theorem arrivesFrom_bottom_selfLinked (h : Linked sites) {b : Site} (hb : b ∈ sites) {origin : Span}
    {r : Reference} : ArrivesFrom (sites.map Site.selfLinked) origin r b.bottom ↔
      ArrivesFrom sites origin r b.bottom := by
  rw [arrivesFrom_selfLinked h]
  refine ⟨fun harr => harr.elim id ?_, .inl⟩
  rintro ⟨c, hc, i, -, hp, hend, -⟩
  obtain ⟨hid, -⟩ : b.id = c.id ∧ b.effects.length = i := by simpa [Site.bottom] using hp
  obtain rfl := h.eq_of_id hb hc hid
  exact hend

/-- **The def-use chains of blocks with links to themselves** are the chains, and
what the blocks feed to themselves. -/
theorem chain_selfLinked (h : Linked sites) (hu : Unambiguous sites) {x : Edge} :
    Chain (sites.map Site.selfLinked) x ↔ Chain sites x ∨ ∃ b ∈ sites, b.Feeds x := by
  constructor
  · rintro ⟨r, a, hmem, i, e, he, huse, ht, harr⟩
    obtain ⟨b, hb, rfl⟩ := List.mem_map.1 hmem
    have chain : ArrivesFrom sites x.source r ⟨b.id, i⟩ → Chain sites x := fun harr =>
      ⟨r, b, hb, i, e, he, huse, ht, harr⟩
    rcases (arrivesFrom_selfLinked h).1 harr with harr | ⟨c, hc, j, hj, hp, hend, hclear⟩
    · exact .inl (chain harr)
    · obtain ⟨hid, rfl⟩ : b.id = c.id ∧ i = j := by simpa [Site.selfLinked] using hp
      obtain rfl := h.eq_of_id hb hc hid
      -- at its end the block leaves it, or it went through the block from the top
      rcases (arrives_bottom h hb).1 ⟨_, hend⟩ with hleft | ⟨htop, -⟩
      · exact .inr ⟨b, hb, (Site.feeds_iff (hu.unshared _) hb).2 ⟨r, hleft, hend.madeAt, i, e, he, ht, huse, hclear⟩⟩
      · exact .inl (chain (((arrives_iff h hb hj).2 (.inr ⟨htop, hclear⟩)).from (hu.unshared _) hend.madeAt))
  · rintro (⟨r, b, hb, i, e, he, huse, ht, harr⟩ | ⟨b, hb, hx⟩)
    · exact ⟨r, _, List.mem_map_of_mem hb, i, e, he, huse, ht, (arrivesFrom_selfLinked h).2 (.inl harr)⟩
    · obtain ⟨r, hr, hmade, i, e, he, ht, huse, hclear⟩ := (Site.feeds_iff (hu.unshared _) hb).1 hx
      have hi : i ≤ b.effects.length := Nat.le_of_lt (List.getElem?_eq_some_iff.1 he).1
      have hend : ArrivesFrom sites x.source r b.bottom :=
        Arrives.from (hu.unshared _) ((arrives_bottom h hb).2 (.inl hr)) hmade
      exact ⟨r, _, List.mem_map_of_mem hb, i, e, he, huse, ht,
        (arrivesFrom_selfLinked h).2 (.inr ⟨b, hb, i, hi, rfl, hend, hclear⟩)⟩

/-! ## Edges at any time -/

namespace Session

/-- **Whatever is called, edges are chains of the blocks with links to themselves.** -/
theorem Later.chain_of_mem_edges (h : Linked sites) (ho : Owned sites) (hu : Unambiguous sites)
    {s t : Session} (hl : Later sites s t) (hs : s.Sound sites)
    (hedges : ∀ x ∈ s.edges, Chain (sites.map Site.selfLinked) x) :
    ∀ x ∈ t.edges, Chain (sites.map Site.selfLinked) x := by
  refine (hl.keeps (P := fun t => t.Sound sites ∧ ∀ x ∈ t.edges, Chain (sites.map Site.selfLinked) x)
    ?_ ⟨hs, hedges⟩).2
  rintro s b hb ⟨hs, hedges⟩
  refine ⟨hs.visited h hb, fun x hx => ?_⟩
  rcases (hs.mem_edges_visited_iff h ho (hu.unshared _) hb).1 hx with hx | hx
  · exact hedges x hx
  · refine (chain_selfLinked h hu).2 ?_
    exact (hs.chain_or_feeds h (hu.unshared _) hb hx).imp_right fun hx => ⟨b, hb, hx.1⟩

/-- A right state in which everything is found agrees with all blocks. -/
theorem Complete.agrees (h : Linked sites) {s : Session} (hc : s.Complete sites) (hs : s.Sound sites)
    {b : Site} (hb : b ∈ sites) : s.Agrees b := fun r =>
  ⟨(hs.fits h hb).mem_result, fun hr => hc.records b hb r (hs.arrives_result h hb hr)⟩

/-! ## States in which nothing is left to find -/

/-- A state after a call without a budget. -/
structure Concluded (sites : List Site) (s : Session) : Prop where
  sound : s.Sound sites
  complete : s.Complete sites
  chains : ∀ x, Chain sites x → x ∈ s.edges

/-- All that a visit could find has been found. -/
structure Exhausted (sites : List Site) (s : Session) : Prop where
  concluded : s.Concluded sites
  feeds : ∀ b ∈ sites, ∀ x, b.Feeds x → x ∈ s.edges

theorem Later.concluded (h : Linked sites) {s t : Session} (hl : Later sites s t)
    (hs : s.Concluded sites) : t.Concluded sites where
  sound := hl.sound h hs.sound
  complete := hl.complete h hs.sound hs.complete
  chains := fun x hx => hl.edges (hs.chains x hx)

theorem Later.exhausted (h : Linked sites) {s t : Session} (hl : Later sites s t)
    (hs : s.Exhausted sites) : t.Exhausted sites where
  concluded := hl.concluded h hs.concluded
  feeds := fun b hb x hx => hl.edges (hs.feeds b hb x hx)

theorem foldl_insert_of_subset {found edges : List Edge} (h : found ⊆ edges) :
    found.foldl Edge.insert edges = edges := by
  induction found with
  | nil => rfl
  | cons x found ih =>
    obtain ⟨hx, hrest⟩ := List.cons_subset.1 h
    have hinsert : Edge.insert edges x = edges := by simp [Edge.insert, hx]
    rw [List.foldl_cons, hinsert]
    exact ih hrest

/-- **Where nothing is left to find, a visit changes neither records nor edges.** -/
theorem Exhausted.visited (h : Linked sites) (ho : Owned sites) (hu : Unambiguous sites) {s : Session}
    (hs : s.Exhausted sites) {b : Site} (hb : b ∈ sites) :
    (s.visited b).records = s.records ∧ (s.visited b).edges = s.edges := by
  obtain ⟨⟨hsound, hcomplete, hchains⟩, hfeeds⟩ := hs
  have hsame : (s.result b).sameAs (s.record b.id) = true :=
    Definitions.sameAs_iff.2 fun r => (hcomplete.agrees h hsound hb r).symm
  refine ⟨records_visited_of_same hsame, ?_⟩
  rw [Session.visited, if_pos hsame]
  refine foldl_insert_of_subset fun x hx => ?_
  rw [mem_edgesAlong_iff_joins ho (hu.unshared _) hb fun d hd => hsound.made_start h hb hd] at hx
  rcases hsound.chain_or_feeds h (hu.unshared _) hb hx with hx | ⟨hx, -⟩
  · exact hchains x hx
  · exact hfeeds b hb x hx

theorem Later.eq_of_exhausted (h : Linked sites) (ho : Owned sites) (hu : Unambiguous sites)
    {s t : Session} (hl : Later sites s t) (hs : s.Exhausted sites) :
    t.records = s.records ∧ t.edges = s.edges := by
  refine (hl.keeps (P := fun t => t.Exhausted sites ∧ t.records = s.records ∧ t.edges = s.edges) ?_
    ⟨hs, rfl, rfl⟩).2
  rintro t b hb ⟨ht, hrecords, hedges⟩
  obtain ⟨hrecords', hedges'⟩ := ht.visited h ho hu hb
  exact ⟨Later.exhausted h (.single ⟨b, hb, rfl⟩) ht, hrecords'.trans hrecords, hedges'.trans hedges⟩

end Session

/-! ## Calls without a budget -/

/-- A call without a budget concludes, wherever it begins. -/
theorem exists_concluded (h : Linked sites) (ho : Owned sites) (hu : Unambiguous sites) {s : Session}
    (hs : s.Sound sites) :
    ∃ t o, analyze sites none s = .ok (t, o) ∧ t.Concluded sites := by
  obtain ⟨t, o, hok, hlater, hcomplete⟩ := exists_complete h hs
  obtain ⟨places, t', hrun, -, hok'⟩ := exists_run h.resolved hs.bounded
  obtain ⟨rfl, -⟩ : t = t' ∧ o = _ := by simpa using hok.symm.trans hok'
  exact ⟨t, o, hok, hlater.sound h hs, hcomplete, fun x => Run.mem_edges_of_chain h ho hs hrun (hu.unshared _)⟩

/-- **A call without a budget after such a call leaves nothing to find**: it visits
every block over its own record. -/
theorem exists_exhausted (h : Linked sites) (ho : Owned sites) (hu : Unambiguous sites) {s : Session}
    (hs : s.Concluded sites) :
    ∃ t o, analyze sites none s = .ok (t, o) ∧ t.Exhausted sites := by
  have hagrees : ∀ b ∈ sites, s.Agrees b := fun b hb => hs.complete.agrees h hs.sound hb
  obtain ⟨t, hrun, -, hedges⟩ := exists_repeat h.resolved (List.range sites.length) hs.sound.covers
    hagrees fun p hp => List.mem_range.1 hp
  have hlen : (List.range sites.length).length ≤ visitBound sites s := by
    rw [List.length_range]
    exact Nat.le_add_right ..
  refine ⟨t, _, hrun.analyze_eq h.resolved hs.sound.covers hlen,
    (hrun.later h.resolved hs.sound.covers).concluded h hs, fun b hb x hx => (hedges x).2 (.inr ?_)⟩
  obtain ⟨p, hp⟩ := List.mem_iff_getElem?.1 hb
  refine ⟨p, List.mem_range.2 (List.getElem?_eq_some_iff.1 hp).1, b, hp, ?_⟩
  refine (mem_edgesAlong_iff_joins ho (hu.unshared _) hb fun d hd => hs.sound.made_start h hb hd).2 ?_
  exact Session.joins_of_feeds (hu.unshared _) hb
    (fun r hr => hs.complete.records b hb r ((arrives_bottom h hb).2 (.inl hr))) hx

/-- A list in which something stands twice is two lists in which it stands. -/
theorem exists_append_of_two_le_count {α : Type} [BEq α] [LawfulBEq α] {a : α} {l : List α}
    (h : 2 ≤ l.count a) : ∃ l₁ l₂, l = l₁ ++ l₂ ∧ a ∈ l₁ ∧ a ∈ l₂ := by
  obtain ⟨l₁, l₂, rfl⟩ := List.append_of_mem (List.count_pos_iff.1 (Nat.lt_of_lt_of_le Nat.zero_lt_two h))
  by_cases hmem : a ∈ l₁
  · exact ⟨l₁, a :: l₂, rfl, hmem, List.mem_cons_self ..⟩
  · refine ⟨l₁ ++ [a], l₂, by simp, by simp, List.count_pos_iff.1 ?_⟩
    rw [List.count_append, List.count_cons_self, List.count_eq_zero_of_not_mem hmem] at h
    omega

/-- After calls of which two had no budget nothing is left to find. -/
theorem exhausted_of_analyzeAll (h : Linked sites) (ho : Owned sites) (hu : Unambiguous sites)
    {budgets : List (Option Int)} (htwo : 2 ≤ budgets.count none) {s s' : Session}
    (hs : s.Sound sites) (hok : analyzeAll sites budgets s = .ok s') : s'.Exhausted sites := by
  obtain ⟨first, second, rfl, hfirst, hsecond⟩ := exists_append_of_two_le_count htwo
  obtain ⟨s₁, hok₁, hlater₁⟩ := exists_analyzeAll h.resolved first hs.covers
  have hconcluded : s₁.Concluded sites :=
    analyzeAll_of_none h.resolved (·.covers) (·.sound h) (·.concluded h)
      (exists_concluded h ho hu) hfirst hs hok₁
  have hok₂ : analyzeAll sites second s₁ = .ok s' := by
    rw [analyzeAll, List.foldlM_append, ← analyzeAll, hok₁] at hok
    exact hok
  exact analyzeAll_of_none h.resolved (·.sound.covers) (·.concluded h) (·.exhausted h)
    (exists_exhausted h ho hu) hsecond hconcluded hok₂

/-- **What the edges are after any calls.** The blocks of a graph whose links fit
together and whose definitions are unambiguous are put into any order, and calls with
any budgets are made. Then every edge is a def-use chain of the graph with a link from
every block to itself. Once two of the calls had no budget, the edges are all of these
chains, and no more calls change the edges or the records. -/
theorem Graph.Linked.edges_of_calls {g : Graph} (hg : g.Linked) (rules : Rules)
    (hu : Unambiguous (g.sites rules)) {g' : Graph} (hperm : g'.blocks.Perm g.blocks)
    (budgets : List (Option Int)) :
    ∃ s, analyzeAll (g'.sites rules) budgets (.fresh (g'.sites rules)) = .ok s ∧
      (∀ x ∈ s.edges, Chain (g.selfLinked.sites rules) x) ∧
      (2 ≤ budgets.count none →
        (∀ x, x ∈ s.edges ↔ Chain (g.selfLinked.sites rules) x) ∧
        ∀ more, ∃ t, analyzeAll (g'.sites rules) more s = .ok t ∧
          t.records = s.records ∧ t.edges = s.edges) := by
  have hsame := Graph.mem_sites_of_perm hperm rules
  have h := (hg.of_perm hperm).sites rules
  have ho := g'.sites_owned rules
  have hu' : Unambiguous (g'.sites rules) := hu.mono fun b => (hsame b).1
  have hchain : ∀ x, Chain ((g'.sites rules).map Site.selfLinked) x ↔
      Chain (g.selfLinked.sites rules) x := by
    intro x
    have hmem : ∀ b, b ∈ (g'.sites rules).map Site.selfLinked ↔ b ∈ (g.sites rules).map Site.selfLinked := by
      simp [hsame]
    rw [Graph.sites_selfLinked]
    exact ⟨Chain.mono fun b => (hmem b).1, Chain.mono fun b => (hmem b).2⟩
  obtain ⟨s, hok, hlater⟩ := exists_analyzeAll h.resolved budgets Session.fresh_covers
  have hedges : ∀ x ∈ s.edges, Chain (g.selfLinked.sites rules) x := fun x hx =>
    (hchain x).1 (hlater.chain_of_mem_edges h ho hu' Session.fresh_sound (fun _ hx => nomatch hx) x hx)
  refine ⟨s, hok, hedges, fun htwo => ?_⟩
  have hexhausted := exhausted_of_analyzeAll h ho hu' htwo Session.fresh_sound hok
  refine ⟨fun x => ⟨hedges x, fun hx => ?_⟩, fun more => ?_⟩
  · rcases (chain_selfLinked h hu').1 ((hchain x).2 hx) with hx | ⟨b, hb, hx⟩
    · exact hexhausted.concluded.chains x hx
    · exact hexhausted.feeds b hb x hx
  · obtain ⟨t, hok', hlater'⟩ := exists_analyzeAll h.resolved more (hlater.covers Session.fresh_covers)
    exact ⟨t, hok', hlater'.eq_of_exhausted h ho hu' hexhausted⟩

/-- A graph with a loop, with its blocks in the opposite order. -/
def Graph.rebindingReversed : Graph :=
  { Graph.rebinding with blocks := Graph.rebinding.blocks.reverse }

/-- The hypotheses of `edges_of_calls` hold of a graph with a loop and of its blocks in
the opposite order; two of the calls made are not cut short. -/
theorem Graph.rebinding_edges_of_calls :
    Graph.rebinding.Linked ∧ Unambiguous (Graph.rebinding.sites .default) ∧
      Graph.rebindingReversed.blocks.Perm Graph.rebinding.blocks ∧
      ∃ s, analyzeAll (Graph.rebindingReversed.sites .default) [some 1, none, some (-1), none]
          (.fresh (Graph.rebindingReversed.sites .default)) = .ok s ∧
        ∀ x, x ∈ s.edges ↔ Chain (Graph.rebinding.selfLinked.sites .default) x := by
  have hu : Unambiguous (Graph.rebinding.sites .default) := by decide +kernel
  have hperm : Graph.rebindingReversed.blocks.Perm Graph.rebinding.blocks := List.reverse_perm _
  obtain ⟨s, hok, -, hexact⟩ := Graph.Linked.edges_of_calls Graph.rebinding_linked .default hu hperm
    [some 1, none, some (-1), none]
  exact ⟨Graph.rebinding_linked, hu, hperm, s, hok, (hexact (by decide)).1⟩

end Reaching
