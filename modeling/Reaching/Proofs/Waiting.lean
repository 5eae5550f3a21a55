/-
What holds whenever a call of the analysis looks at the blocks that wait.

No block waits twice. A block that does not wait has on record what a replay of it
finds now, and the edges of a replay over the records in front of it have been found
(`Session.Pending`). At the start of a call all blocks wait, so nothing is asked of
the records that earlier calls have left. A visit takes a block off the list and may
change its record; the blocks behind it, itself among them if it is one of these, then
come to wait, so that in front of a block that does not wait nothing has changed
(`Session.Pending.visited`). By induction this holds after every visit (`Run.pending`).
-/
import Reaching.Proofs.Calls
import Reaching.Proofs.DefUse

namespace Reaching

variable {sites : List Site}

/-! ## The invariant -/

namespace Session

/-- The blocks that do not wait are done with, as long as nothing in front of them changes. -/
structure Pending (sites : List Site) (s : Session) (waiting : List Nat) : Prop where
  places : Places sites waiting
  agrees : ∀ p b, sites[p]? = some b → p ∉ waiting → s.Agrees b
  collected : ∀ p b, sites[p]? = some b → p ∉ waiting → s.Collected sites b

/-- When a call starts, all blocks wait. -/
theorem pending_range (s : Session) : s.Pending sites (List.range sites.length) := by
  have hwaits : ∀ {p : Nat} {b : Site}, sites[p]? = some b → p ∈ List.range sites.length := fun hp =>
    List.mem_range.2 (List.getElem?_eq_some_iff.1 hp).1
  exact ⟨places_range, fun _ _ hp hnot => absurd (hwaits hp) hnot,
    fun _ _ hp hnot => absurd (hwaits hp) hnot⟩

/-- **A visit keeps the invariant.** -/
theorem Pending.visited (h : Linked sites) (ho : Owned sites) {s s' : Session} (hs : s.Sound sites)
    {p : Nat} {b : Site} {waiting waiting' : List Nat} (hpending : s.Pending sites (p :: waiting))
    (hp : sites[p]? = some b) (hv : visit sites b s waiting = .ok (s', waiting')) :
    s'.Pending sites waiting' where
  places := hpending.places.visited h.resolved hs.covers hp hv
  agrees := agrees_of_quiet h hs.covers hpending.agrees hp hv
  collected := collected_of_quiet h ho hs hpending.collected hp hv

/-- Where definitions are unambiguous, the edges of a block are collected when those of its replay over
the records in front of it have been found. -/
theorem Sound.collected_iff (h : Linked sites) (ho : Owned sites) (hu : Unambiguous sites) {s : Session}
    (hs : s.Sound sites) {b : Site} (hb : b ∈ sites) :
    s.Collected sites b ↔ ∀ x ∈ edgesAlong b.effects (s.merged b.preds []), x ∈ s.edges := by
  have hmade : ∀ d ∈ s.merged b.preds [], Made sites d := by
    intro d hd
    obtain ⟨i, hi, hd⟩ := (mem_of_mem_merged hd).resolve_left List.not_mem_nil
    obtain ⟨a, ha, rfl⟩ := h.resolved b hb i (.inl hi)
    exact hs.made a ha d hd
  refine forall_congr' fun x => ?_
  rw [mem_edgesAlong_iff_joins ho (hu.unshared _) hb hmade, forall_prop_of_true (hu.unshared _)]

end Session

/-- **A run keeps the invariant.** -/
theorem Run.pending (h : Linked sites) (ho : Owned sites) {s s' : Session} {waiting places waiting' : List Nat}
    (hrun : Run sites s waiting places s' waiting') (hs : s.Sound sites) (hpending : s.Pending sites waiting) :
    s'.Pending sites waiting' := by
  refine (hrun.invariant (P := fun _ s waiting => s.Sound sites ∧ s.Pending sites waiting) ?_ []
    ⟨hs, hpending⟩).2
  rintro seen s s' p b waiting waiting' ⟨hs, hpending⟩ hp hv
  have hb := List.mem_of_getElem? hp
  refine ⟨?_, hpending.visited h ho hs hp hv⟩
  obtain ⟨rfl, -⟩ := visit_cases h hs.covers hb hv
  exact hs.visited h hb

/-! ## Calls -/

/-- **What holds whenever a call looks at the blocks that wait.** Calls with any budgets are made
one after another, and then one more. After any number of visits that its budget allows, the
blocks that wait are blocks of the graph, none of them twice. Every other block has on record
just what a replay of it finds over its own record and those in front of it; and if definitions
are unambiguous, the edges of its replay over the records in front of it alone are found. -/
theorem Graph.Linked.waiting_invariant {g : Graph} (hg : g.Linked) (rules : Rules)
    (earlier : List (Option Int)) (budget : Option Int) :
    ∃ s, analyzeAll (g.sites rules) earlier (.fresh (g.sites rules)) = .ok s ∧
      ∃ s' o, analyze (g.sites rules) budget s = .ok (s', o) ∧
      ∀ n ≤ visitLimit (g.sites rules) budget s, ∃ now waiting,
        visitUpTo (g.sites rules) n s (List.range (g.sites rules).length) = .ok (now, waiting) ∧
        (∀ p ∈ waiting, p < g.blocks.length) ∧ waiting.Nodup ∧
        ∀ p b, g.blocks[p]? = some b → p ∉ waiting →
          (∀ r, r ∈ (now.record b.id).identities ↔
            r ∈ (outgoing (b.site rules).effects (now.merged b.preds (now.record b.id))).identities) ∧
          (Unambiguous (g.sites rules) →
            ∀ x ∈ edgesAlong (b.site rules).effects (now.merged b.preds []), x ∈ now.edges) := by
  have h := hg.sites rules
  have ho := g.sites_owned rules
  obtain ⟨s, hoks, hlaters⟩ := exists_analyzeAll h.resolved earlier Session.fresh_covers
  have hs := hlaters.sound h Session.fresh_sound
  obtain ⟨s', o, hok, -⟩ := exists_analyze h.resolved budget hs.covers
  refine ⟨s, hoks, s', o, hok, fun n _ => ?_⟩
  obtain ⟨places, now, waiting, hrun, -, hmoment⟩ := exists_visitUpTo h.resolved n hs.covers places_range
  have hpending := hrun.pending h ho hs s.pending_range
  have hnow := hrun.sound h hs
  refine ⟨now, waiting, hmoment, fun p hp => ?_, hpending.places.nodup, fun p b hp hnot => ?_⟩
  · have hlt := hpending.places.lt p hp
    rwa [Graph.sites, List.length_map] at hlt
  · have hsite : (g.sites rules)[p]? = some (b.site rules) := by
      rw [Graph.sites, List.getElem?_map, hp]
      rfl
    have hb := List.mem_of_getElem? hsite
    exact ⟨hpending.agrees p _ hsite hnot,
      fun hu => (hnow.collected_iff h ho hu hb).1 (hpending.collected p _ hsite hnot)⟩

/-- The hypothesis of `waiting_invariant` holds of a graph with a loop. After a call that was cut
short and two visits of one more, the loop waits to be visited again and the entry does not. -/
theorem Graph.rebinding_waiting_invariant :
    Graph.rebinding.Linked ∧ Unambiguous (Graph.rebinding.sites .default) ∧
      ∃ s, analyzeAll (Graph.rebinding.sites .default) [some 1]
          (.fresh (Graph.rebinding.sites .default)) = .ok s ∧
        ∃ now, visitUpTo (Graph.rebinding.sites .default) 2 s (List.range 2) = .ok (now, [1]) ∧
          ∀ b, Graph.rebinding.blocks[0]? = some b →
            (∀ r, r ∈ (now.record b.id).identities ↔
              r ∈ (outgoing (b.site .default).effects (now.merged b.preds (now.record b.id))).identities) ∧
            ∀ x ∈ edgesAlong (b.site .default).effects (now.merged b.preds []), x ∈ now.edges := by
  have hu : Unambiguous (Graph.rebinding.sites .default) := by decide +kernel
  obtain ⟨s, hoks, -, -, -, hmoments⟩ :=
    Graph.Linked.waiting_invariant Graph.rebinding_linked .default [some 1] (some 2)
  obtain ⟨now, waiting, hmoment, -, -, hquiet⟩ := hmoments 2 (Nat.le_refl 2)
  have hwaiting : ((analyzeAll (Graph.rebinding.sites .default) [some 1]
      (.fresh (Graph.rebinding.sites .default))).bind fun s =>
        visitUpTo (Graph.rebinding.sites .default) 2 s (List.range 2)).toOption.map (·.2) = some [1] := by
    decide +kernel
  have hmoment' : visitUpTo (Graph.rebinding.sites .default) 2 s (List.range 2) = .ok (now, waiting) := hmoment
  obtain rfl : waiting = [1] := by
    rw [hoks] at hwaiting
    simpa [Except.bind, hmoment', Except.toOption] using hwaiting
  refine ⟨Graph.rebinding_linked, hu, s, hoks, now, hmoment', fun b hb => ?_⟩
  obtain ⟨hagrees, hedges⟩ := hquiet 0 b hb (by decide)
  exact ⟨hagrees, hedges hu⟩

end Reaching
