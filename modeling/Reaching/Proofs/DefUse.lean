/-
Def-use edges: a finished analysis has found every def-use chain.

A replay gives an edge for a definition that is read (`mem_edgesAlong_iff_joins`).
The source of the edge is the owner of the definition, which is the statement
that made it. This depends on the identity of the definition only if no statement
with another span makes the same one: of the source of an edge (`Unshared`), or of all
statements (`Unambiguous`).

Edges are collected while records still grow. But a block that does not wait has
been replayed over what the blocks before it have on record now
(`Session.Collected`), so that in the end nothing is missing.
-/
import Reaching.Proofs.Exactness

namespace Reaching

/-! ## Owners -/

open Code in
theorem Code.Stmt.owner_of_mem_definitions {rules : Rules} {s : Stmt} {d : Definition}
    (h : d ∈ s.definitions rules) : d.owner = s := by
  have ofList : ∀ {list : List Definition}, d ∈ Definitions.ofList list → d ∈ list := fun hd =>
    (Definitions.mem_of_mem_union hd).resolve_left List.not_mem_nil
  rcases Definitions.mem_of_mem_union h with h | h
  · rcases Definitions.mem_of_mem_union h with h | h
    · obtain ⟨r, -, rfl⟩ := List.mem_map.1 (ofList h)
      rfl
    · obtain ⟨found, hfound, hd⟩ := List.mem_flatMap.1 (ofList h)
      obtain ⟨⟨text, span⟩, -, rfl⟩ := List.mem_map.1 hfound
      simp only [Declaration.ofLiteral] at hd
      split at hd
      · cases hd
      · cases hd
      · obtain ⟨declared, -, rfl⟩ := List.mem_map.1 hd
        rfl
  · simp only [Code.Stmt.ownDefinitions] at h
    split at h
    · obtain ⟨r, -, rfl⟩ := List.mem_map.1 h
      rfl
    · obtain rfl := List.mem_singleton.1 h
      rfl
    · obtain ⟨i, -, rfl⟩ := List.mem_map.1 h
      rfl

/-- Every definition is owned by a statement with the span of the one that makes it. -/
def Owned (sites : List Site) : Prop :=
  ∀ b ∈ sites, ∀ e ∈ b.effects, ∀ d ∈ e.definitions, d.owner.span = e.span

theorem Graph.sites_owned (g : Graph) (rules : Rules) : Owned (g.sites rules) := by
  intro s hs e he d hd
  obtain ⟨b, -, rfl⟩ := Graph.mem_sites.1 hs
  obtain ⟨stmt, -, rfl⟩ := List.mem_map.1 he
  cases stmt with
  | none => cases hd
  | some stmt =>
    rw [Code.Stmt.owner_of_mem_definitions hd]
    rfl

variable {sites : List Site}

/-- Some statement with a span makes a definition. -/
def MadeAt (sites : List Site) (r : Reference) (origin : Span) : Prop :=
  ∃ b ∈ sites, ∃ e ∈ b.effects, e.Makes r ∧ e.span = origin

/-- No definition is made by statements with two different spans. -/
def Unambiguous (sites : List Site) : Prop :=
  ∀ r origin origin', MadeAt sites r origin → MadeAt sites r origin' → origin = origin'

/-- What statements with a span make is made by no statement with another span. -/
def Unshared (sites : List Site) (origin : Span) : Prop :=
  ∀ r origin', MadeAt sites r origin → MadeAt sites r origin' → origin' = origin

theorem Unambiguous.unshared (hu : Unambiguous sites) (origin : Span) : Unshared sites origin :=
  fun r origin' hmade hmade' => hu r origin' origin hmade' hmade

/-- All definitions that statements make, with the spans of the statements. -/
def makings (sites : List Site) : List (Reference × Span) :=
  sites.flatMap fun b => b.effects.flatMap fun e => e.definitions.identities.map fun r => (r, e.span)

theorem mem_makings {r : Reference} {origin : Span} :
    (r, origin) ∈ makings sites ↔ MadeAt sites r origin := by
  simp [makings, MadeAt, Effect.Makes]

theorem unambiguous_iff : Unambiguous sites ↔
    ∀ x ∈ makings sites, ∀ y ∈ makings sites, x.1 = y.1 → x.2 = y.2 := by
  constructor
  · rintro hu ⟨r, origin⟩ hx ⟨r', origin'⟩ hy heq
    obtain rfl : r = r' := heq
    exact hu r origin origin' (mem_makings.1 hx) (mem_makings.1 hy)
  · intro hall r origin origin' hx hy
    exact hall _ (mem_makings.2 hx) _ (mem_makings.2 hy) rfl

instance : Decidable (Unambiguous sites) := decidable_of_iff _ unambiguous_iff.symm

theorem Made.madeAt_owner (ho : Owned sites) {d : Definition} (h : Made sites d) :
    MadeAt sites d.identity d.owner.span := by
  obtain ⟨b, hb, e, he, hd⟩ := h
  exact ⟨b, hb, e, he, List.mem_map_of_mem hd, (ho b hb e he d hd).symm⟩

theorem ArrivesFrom.madeAt {origin : Span} {r : Reference} {p : Point}
    (h : ArrivesFrom sites origin r p) : MadeAt sites r origin := by
  obtain ⟨b, hb, i, e, he, ho, hmakes, -⟩ := h
  exact ⟨b, hb, e, List.mem_of_getElem? he, hmakes, ho⟩

/-- A definition that arrives comes from where it is made, if it is made nowhere else. -/
theorem Arrives.from {origin : Span} (hu : Unshared sites origin) {r : Reference} {p : Point}
    (h : Arrives sites r p) (hmade : MadeAt sites r origin) : ArrivesFrom sites origin r p := by
  obtain ⟨origin', harr⟩ := h
  rwa [← hu r origin' hmade harr.madeAt]

/-! ## Edges of a replay -/

/-- A replay of a block over definitions `found` at its top leads from the source
of an edge to its target. -/
def Joins (sites : List Site) (b : Site) (found : Reference → Prop) (x : Edge) : Prop :=
  ∃ r, MadeAt sites r x.source ∧ ∃ (i : Nat) (e : Effect), b.effects[i]? = some e ∧
    r.name ∈ e.uses ∧ e.span = x.target ∧
      (r ∈ (outgoing (b.effects.take i) []).identities ∨
        (found r ∧ Clear (b.effects.take i) r.name))

theorem Joins.mono {b : Site} {found found' : Reference → Prop} (hsub : ∀ r, found r → found' r)
    {x : Edge} (h : Joins sites b found x) : Joins sites b found' x := by
  obtain ⟨r, hmade, i, e, he, huse, ht, hr⟩ := h
  exact ⟨r, hmade, i, e, he, huse, ht, hr.imp_right fun hr => ⟨hsub r hr.1, hr.2⟩⟩

/-- **The edges of a replay**, told by identities. -/
theorem mem_edgesAlong_iff_joins (ho : Owned sites) {x : Edge} (hu : Unshared sites x.source) {b : Site}
    (hb : b ∈ sites) {ds : Definitions} (hds : ∀ d ∈ ds, Made sites d) :
    x ∈ edgesAlong b.effects ds ↔ Joins sites b (· ∈ ds.identities) x := by
  have made : ∀ {i : Nat} {d : Definition}, d ∈ outgoing (b.effects.take i) ds → Made sites d := by
    intro i d hd
    rcases mem_of_mem_outgoing hd with hd | ⟨e, he, hd⟩
    · exact hds d hd
    · exact ⟨b, hb, e, List.mem_of_mem_take he, hd⟩
  rw [mem_edgesAlong]
  constructor
  · rintro ⟨i, e, he, hx⟩
    obtain ⟨d, hd, huse, rfl⟩ := Effect.mem_edges.1 hx
    exact ⟨d.identity, (made hd).madeAt_owner ho, i, e, he, huse, rfl,
      mem_identities_outgoing.1 (List.mem_map_of_mem hd)⟩
  · rintro ⟨r, hmade, i, e, he, huse, ht, hr⟩
    obtain ⟨d, hd, rfl⟩ := List.mem_map.1 (mem_identities_outgoing.2 hr)
    have hsource := hu _ _ hmade ((made hd).madeAt_owner ho)
    refine ⟨i, e, he, Effect.mem_edges.2 ⟨d, hd, huse, ?_⟩⟩
    rw [hsource, ht]

/-! ## Nothing is missing -/

namespace Session

theorem Sound.mem_edges_visited_iff (h : Linked sites) (ho : Owned sites) {x : Edge}
    (hu : Unshared sites x.source) {s : Session} (hs : s.Sound sites) {b : Site} (hb : b ∈ sites) :
    x ∈ (s.visited b).edges ↔ x ∈ s.edges ∨ Joins sites b (· ∈ (s.start b).identities) x := by
  rw [mem_edges_visited, mem_edgesAlong_iff_joins ho hu hb fun d hd => hs.made_start h hb hd]

/-- The edges of a replay over the records in front of a block have been found, those whose source
shares what it makes apart. -/
def Collected (sites : List Site) (s : Session) (b : Site) : Prop :=
  ∀ x, Unshared sites x.source → Joins sites b (· ∈ (s.merged b.preds []).identities) x → x ∈ s.edges

/-- **After a visit the edges of the blocks that do not wait are collected**, if they
were before. -/
theorem collected_of_quiet (h : Linked sites) (ho : Owned sites) {s s' : Session}
    (hs : s.Sound sites) {p : Nat} {b : Site} {waiting waiting' : List Nat}
    (hold : ∀ q a, sites[q]? = some a → q ∉ p :: waiting → s.Collected sites a)
    (hp : sites[p]? = some b) (hv : visit sites b s waiting = .ok (s', waiting')) :
    ∀ q a, sites[q]? = some a → q ∉ waiting' → s'.Collected sites a := by
  intro q a hq hqw x hu hx
  have hb := List.mem_of_getElem? hp
  obtain ⟨hpreds, hcase⟩ := visit_quiet h hs.covers hp hv hq hqw
  obtain ⟨rfl, -⟩ := visit_cases h hs.covers hb hv
  have hx' : Joins sites a (· ∈ (s.merged a.preds []).identities) x := by
    rwa [merged_congr hpreds] at hx
  rw [hs.mem_edges_visited_iff h ho hu hb]
  rcases hcase with rfl | ⟨hqold, -⟩
  · -- the visited block itself: its replay started from more than its predecessors have
    obtain rfl : b = a := Option.some.inj (hp.symm.trans hq)
    exact .inr (hx'.mono fun r hr => mem_start.2 (.inr hr))
  · exact .inl (hold q a hq hqold x hu hx')

/-- Where all blocks agree and all their edges are collected, every def-use chain
from a source that shares nothing is among the edges. -/
theorem Collected.mem_edges_of_chain (h : Linked sites) {s : Session}
    (hagrees : ∀ b ∈ sites, s.Agrees b) (hall : ∀ b ∈ sites, s.Collected sites b) {x : Edge}
    (hu : Unshared sites x.source) (hx : Chain sites x) : x ∈ s.edges := by
  obtain ⟨r, b, hb, i, e, he, huse, ht, harr⟩ := hx
  have hfound := finds_of_arrivesFrom h hagrees harr b hb rfl
  exact hall b hb x hu ⟨r, harr.madeAt, i, e, he, huse, ht, mem_identities_outgoing.1 hfound⟩

end Session

/-- A run to the end has found every def-use chain. -/
theorem Run.mem_edges_of_chain (h : Linked sites) (ho : Owned sites) {s s' : Session} {places : List Nat}
    (hs : s.Sound sites) (hrun : Run sites s (List.range sites.length) places s' []) {x : Edge}
    (hu : Unshared sites x.source) (hx : Chain sites x) :
    x ∈ s'.edges := by
  have hcollected : ∀ b ∈ sites, s'.Collected sites b := fun b =>
    hrun.forall_of_quiet h.resolved (I := fun s => s.Sound sites) (Q := Session.Collected sites)
      (fun hs => hs.covers) (fun hb hs => hs.visited h hb) (fun hs => Session.collected_of_quiet h ho hs) hs
  exact Session.Collected.mem_edges_of_chain h (fun _ => hrun.agrees h hs) hcollected hu hx

/-- **No def-use chain is missed.** On blocks whose links fit together and whose
definitions are unambiguous an analysis without a budget ends, and its edges hold
every chain from a statement that makes a definition to a statement that reads
it, along any path on which the name is not defined again. -/
theorem Graph.Linked.edges_complete {g : Graph} (hg : g.Linked) (rules : Rules)
    (hu : Unambiguous (g.sites rules)) :
    ∃ s o, analyze (g.sites rules) none (.fresh (g.sites rules)) = .ok (s, o) ∧
      ∀ x, Chain (g.sites rules) x → x ∈ s.edges := by
  have h := hg.sites rules
  obtain ⟨places, s, hrun, hok, -⟩ := h.exists_finished
  exact ⟨s, _, hok, fun x =>
    Run.mem_edges_of_chain h (g.sites_owned rules) Session.fresh_sound hrun (hu.unshared _)⟩

/-- The hypotheses of `edges_complete` hold of a graph with a loop. -/
theorem Graph.rebinding_edges_complete :
    Graph.rebinding.Linked ∧ Unambiguous (Graph.rebinding.sites .default) ∧
      ∃ s o, analyze (Graph.rebinding.sites .default) none (.fresh (Graph.rebinding.sites .default))
          = .ok (s, o) ∧
        ∀ x, Chain (Graph.rebinding.sites .default) x → x ∈ s.edges :=
  have hu : Unambiguous (Graph.rebinding.sites .default) := by decide +kernel
  ⟨Graph.rebinding_linked, hu, Graph.Linked.edges_complete Graph.rebinding_linked .default hu⟩

end Reaching
