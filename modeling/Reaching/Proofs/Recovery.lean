/-
Interrupted analyses recover.

At every moment a state has found nothing but what can be found (`Session.Sound`,
`Later.imported`). A call that ends has found all of it, from whatever state it
began (`exists_complete`): it visits every block, and it stops only when the
records agree. What was found stays (`Later.complete`). So whatever budgets
stopped the calls before, the records and the imported names after a call without
a budget are those of an analysis that was never stopped
(`Graph.Linked.calls_recover`).
-/
import Reaching.Proofs.Calls

namespace Reaching

variable {sites : List Site}

/-- Some statement imports a name. -/
def Imported (sites : List Site) (name : String) : Prop :=
  ∃ b ∈ sites, ∃ e ∈ b.effects, name ∈ e.imports

namespace Session

/-! ## What was found stays -/

/-- Only what statements import is found. -/
theorem Later.imported {s t : Session} (h : Later sites s t)
    (hs : ∀ name ∈ s.modules, Imported sites name) : ∀ name ∈ t.modules, Imported sites name := by
  refine h.keeps (P := fun t => ∀ name ∈ t.modules, Imported sites name) (fun hb hs name hname => ?_) hs
  rcases mem_modules_visited.1 hname with hname | ⟨e, he, hname⟩
  · exact hs name hname
  · exact ⟨_, hb, e, he, hname⟩

/-- **Records that fit their blocks only grow**, where blocks have numbers of
their own. -/
theorem Later.records (hdistinct : (sites.map (·.id)).Nodup) {s t : Session} (h : Later sites s t)
    (hcov : s.Covers sites) (hs : ∀ b ∈ sites, s.Fits b) {b : Site} (hb : b ∈ sites) {r : Reference}
    (hr : r ∈ (s.record b.id).identities) : r ∈ (t.record b.id).identities := by
  induction h with
  | refl => exact hr
  | @tail u v hl hstep ih =>
    obtain ⟨a, ha, rfl⟩ := hstep
    by_cases hid : b.id = a.id
    · obtain rfl : b = a := List.inj_on_of_nodup_map hdistinct hb ha hid
      rw [mem_identities_visited_self (Later.covers hl hcov) hb]
      exact (Later.fits hdistinct hl hcov hs b hb).mem_result ih
    · rwa [record_visited_of_ne hid]

/-! ## States in which everything is found -/

/-- All that an analysis can find is found: the definitions that arrive at the ends
of blocks, and the names that statements import. -/
structure Complete (sites : List Site) (s : Session) : Prop where
  records : ∀ b ∈ sites, ∀ r, Arrives sites r b.bottom → r ∈ (s.record b.id).identities
  modules : ∀ name, Imported sites name → name ∈ s.modules

/-- A right record holds no more than the one of a state in which everything is found. -/
theorem Sound.mem_record_of_complete {s t : Session} (hs : s.Sound sites) (ht : t.Complete sites)
    {b : Site} (hb : b ∈ sites) {r : Reference} (hr : r ∈ (s.record b.id).identities) :
    r ∈ (t.record b.id).identities :=
  ht.records b hb r (hs.arrives b hb r hr)

/-- Once everything is found, it stays so. -/
theorem Later.complete (h : Linked sites) {s t : Session} (hl : Later sites s t) (hs : s.Sound sites)
    (hc : s.Complete sites) : t.Complete sites where
  records := fun b hb r hr =>
    hl.records h.distinct hs.covers (fun _ ha => hs.fits h ha) hb (hc.records b hb r hr)
  modules := fun name hname => hl.modules (hc.modules name hname)

end Session

/-- **A run to the end from all blocks visits every block**, so all imported names
are found. -/
theorem Run.modules (hres : Resolved sites) {s s' : Session} {places : List Nat} (hs : s.Covers sites)
    (hrun : Run sites s (List.range sites.length) places s' []) {name : String}
    (hname : Imported sites name) : name ∈ s'.modules := by
  obtain ⟨b, hb, e, he, hname⟩ := hname
  refine hrun.forall_of_quiet hres (I := fun s => s.Covers sites)
    (Q := fun s b => ∀ e ∈ b.effects, ∀ name ∈ e.imports, name ∈ s.modules) id
    (fun _ hs => hs.visited _) ?_ hs hb e he name hname
  intro s s' p a waiting waiting' hs hold hp hv q c hq hnot e he name hname
  obtain ⟨rfl, hcases⟩ := visit_inversion hres hs (List.mem_of_getElem? hp) hv
  refine Session.mem_modules_visited.2 ?_
  by_cases hqp : q = p
  · subst hqp
    obtain rfl : c = a := Option.some.inj (hq.symm.trans hp)
    exact .inr ⟨e, he, hname⟩
  · -- a block that waits no more and was not visited did not wait before
    refine .inl (hold q c hq ?_ e he name hname)
    rw [List.mem_cons, not_or]
    refine ⟨hqp, fun hwait => hnot ?_⟩
    rcases hcases with ⟨-, rfl⟩ | ⟨-, hmem, -⟩
    · exact hwait
    · exact (hmem q).2 (.inl hwait)

/-- **A call without a budget finds everything**, wherever it begins. -/
theorem exists_complete (h : Linked sites) {s : Session} (hs : s.Sound sites) :
    ∃ s' o, analyze sites none s = .ok (s', o) ∧ Session.Later sites s s' ∧ s'.Complete sites := by
  obtain ⟨places, s', hrun, -, hok⟩ := exists_run h.resolved hs.bounded
  have hlater := hrun.later h.resolved hs.covers
  refine ⟨s', _, hok, hlater, fun b hb r hr => ?_, fun name => hrun.modules h.resolved hs.covers⟩
  exact ((hlater.sound h hs).mem_record_iff h (fun _ => hrun.agrees h hs) hb).2 hr

/-- After calls of which one had no budget everything is found. -/
theorem complete_of_analyzeAll (h : Linked sites) {budgets : List (Option Int)}
    (hnone : none ∈ budgets) {s s' : Session} (hs : s.Sound sites)
    (hok : analyzeAll sites budgets s = .ok s') : s'.Complete sites := by
  refine (analyzeAll_of_none h.resolved (Q := Session.Sound sites)
    (P := fun s => s.Sound sites ∧ s.Complete sites) (·.covers) (·.sound h) ?_ ?_ hnone hs hok).2
  · rintro s t hl ⟨hs, hc⟩
    exact ⟨hl.sound h hs, hl.complete h hs hc⟩
  · intro s hs
    obtain ⟨t, o, hok, hl, hc⟩ := exists_complete h hs
    exact ⟨t, o, hok, hl.sound h hs, hc⟩

/-! ## Sequences of calls -/

/-- **Each moment of a call is later than the moments before it.** -/
theorem exists_moment (hres : Resolved sites) {s : Session} (hs : s.Covers sites) (n : Nat) :
    ∃ now waiting, visitUpTo sites n s (List.range sites.length) = .ok (now, waiting) ∧
      Session.Later sites s now ∧
      ∀ m, n ≤ m → ∃ next waiting',
        visitUpTo sites m s (List.range sites.length) = .ok (next, waiting') ∧
        Session.Later sites now next := by
  obtain ⟨places, now, waiting, hrun, hplaces, hok⟩ := exists_visitUpTo hres n hs places_range
  have hnow := hrun.later hres hs
  refine ⟨now, waiting, hok, hnow, fun m hm => ?_⟩
  obtain ⟨k, rfl⟩ := Nat.exists_eq_add_of_le hm
  obtain ⟨places', next, waiting', hrun', -, hok'⟩ := exists_visitUpTo hres k (hnow.covers hs) hplaces
  refine ⟨next, waiting', ?_, hrun'.later hres (hnow.covers hs)⟩
  rw [visitUpTo_add, hok]
  exact hok'

/-- **Interrupted analyses recover.** Calls with any budgets are made one after
another, and then some visits of one more call. At that moment no record holds
more than after an analysis that is not stopped; and if one of the calls had no
budget, records and imported names are those of that analysis. Edges and imported
names never become fewer, with more visits of a call and with more calls. -/
theorem Graph.Linked.calls_recover {g : Graph} (hg : g.Linked) (rules : Rules) :
    ∃ full o, analyze (g.sites rules) none (.fresh (g.sites rules)) = .ok (full, o) ∧
      ∀ budgets, ∃ s, analyzeAll (g.sites rules) budgets (.fresh (g.sites rules)) = .ok s ∧
        (∀ n, ∃ now waiting,
          visitUpTo (g.sites rules) n s (List.range (g.sites rules).length) = .ok (now, waiting) ∧
          (∀ b ∈ g.blocks, ∀ r ∈ (now.record b.id).identities, r ∈ (full.record b.id).identities) ∧
          (none ∈ budgets →
            (∀ b ∈ g.blocks, ∀ r,
              r ∈ (now.record b.id).identities ↔ r ∈ (full.record b.id).identities) ∧
            ∀ name, name ∈ now.modules ↔ name ∈ full.modules) ∧
          ∀ m, n ≤ m → ∃ next waiting',
            visitUpTo (g.sites rules) m s (List.range (g.sites rules).length) = .ok (next, waiting') ∧
            now.edges ⊆ next.edges ∧ now.modules ⊆ next.modules) ∧
        ∀ more, ∃ t, analyzeAll (g.sites rules) more s = .ok t ∧
          s.edges ⊆ t.edges ∧ s.modules ⊆ t.modules := by
  have h := hg.sites rules
  have hfresh : ∀ name ∈ (Session.fresh (g.sites rules)).modules, Imported (g.sites rules) name :=
    fun name hname => by cases hname
  obtain ⟨full, o, hfull, hlater, hcomplete⟩ := exists_complete h Session.fresh_sound
  have hfullsound := hlater.sound h Session.fresh_sound
  refine ⟨full, o, hfull, fun budgets => ?_⟩
  obtain ⟨s, hoks, hlaters⟩ := exists_analyzeAll h.resolved budgets Session.fresh_covers
  have hs := hlaters.sound h Session.fresh_sound
  refine ⟨s, hoks, fun n => ?_, fun more => ?_⟩
  · obtain ⟨now, waiting, hok, hnow, hnext⟩ := exists_moment h.resolved hs.covers n
    have hsound := hnow.sound h hs
    refine ⟨now, waiting, hok, fun b hb r => ?_, fun hnone => ?_, fun m hm => ?_⟩
    · exact hsound.mem_record_of_complete hcomplete (Graph.site_mem_sites hb rules)
    · have hall := hnow.complete h hs (complete_of_analyzeAll h hnone Session.fresh_sound hoks)
      refine ⟨fun b hb r => ?_, fun name => ⟨fun hname => ?_, fun hname => ?_⟩⟩
      · have hsite := Graph.site_mem_sites hb rules
        exact ⟨hsound.mem_record_of_complete hcomplete hsite,
          hfullsound.mem_record_of_complete hall hsite⟩
      · exact hcomplete.modules name ((hlaters.trans hnow).imported hfresh name hname)
      · exact hall.modules name (hlater.imported hfresh name hname)
    · obtain ⟨next, waiting', hok', hlater'⟩ := hnext m hm
      exact ⟨next, waiting', hok', fun x => hlater'.edges, fun name => hlater'.modules⟩
  · obtain ⟨t, hok, hnext⟩ := exists_analyzeAll h.resolved more hs.covers
    exact ⟨t, hok, fun x => hnext.edges, fun name => hnext.modules⟩

/-- The hypothesis of `calls_recover` holds of a graph with a loop: after a call cut
short, one that visits nothing, one without a budget and one more that is cut
short, the record of the loop is that of an analysis that is not stopped. -/
theorem Graph.rebinding_calls_recover :
    Graph.rebinding.Linked ∧
      ∃ full o, analyze (Graph.rebinding.sites .default) none
          (.fresh (Graph.rebinding.sites .default)) = .ok (full, o) ∧
        ∃ s, analyzeAll (Graph.rebinding.sites .default) [some 1, some (-1), none, some 1]
            (.fresh (Graph.rebinding.sites .default)) = .ok s ∧
          ∃ now waiting, visitUpTo (Graph.rebinding.sites .default) 1 s (List.range 2)
              = .ok (now, waiting) ∧
            ∀ r, r ∈ (now.record 1).identities ↔ r ∈ (full.record 1).identities := by
  obtain ⟨full, o, hfull, hcalls⟩ := Graph.Linked.calls_recover Graph.rebinding_linked .default
  obtain ⟨s, hoks, hmoments, -⟩ := hcalls [some 1, some (-1), none, some 1]
  obtain ⟨now, waiting, hok, -, hsame, -⟩ := hmoments 1
  exact ⟨Graph.rebinding_linked, full, o, hfull, s, hoks, now, waiting, hok,
    (hsame (by simp)).1 _ (List.mem_cons_of_mem _ (List.mem_cons_self ..))⟩

end Reaching
