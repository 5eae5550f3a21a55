/-
What a second call of the analysis finds.

When a call without a budget has ended, its records agree. So a second call visits
every block once and changes no record (`exists_repeat`). But it replays every
block over the block's own record, and a block that the first call visited once
was not replayed over that before. What the first call may have left out are the
edges that a block feeds to itself, and nothing else (`Session.Answered`); the
second call finds all of them (`Linked.exists_second_call`). So it adds edges
unless all that blocks feed to themselves had been found (`Graph.second_call_iff`).
-/
import Reaching.Proofs.Recovery
import Reaching.Proofs.Origins

namespace Reaching

variable {sites : List Site}

namespace Session

/-! ## What a first call leaves out -/

/-- The edges of a replay over the records as they are have been found, but for
those that the block feeds to itself. -/
def Answered (s : Session) (b : Site) : Prop :=
  ∀ x ∈ edgesAlong b.effects (s.start b), x ∈ s.edges ∨ b.Feeds x

theorem start_congr {s t : Session} {b : Site} (hown : t.record b.id = s.record b.id)
    (hpreds : ∀ i ∈ b.preds, t.record i = s.record i) : t.start b = s.start b := by
  rw [start, start, hown, merged_congr hpreds]

theorem Sound.nodup_start {s : Session} (hs : s.Sound sites) {b : Site} (hb : b ∈ sites) :
    (s.start b).identities.Nodup :=
  nodup_identities_merged (hs.nodup b hb)

/-- A visited block is answered, unless a block before it has changed. -/
theorem Sound.answered_visited (h : Linked sites) (ho : Owned sites) {s : Session}
    (hs : s.Sound sites) {b : Site} (hb : b ∈ sites)
    (hpreds : ∀ i ∈ b.preds, (s.visited b).record i = s.record i) : (s.visited b).Answered b := by
  intro x hx
  have recorded : x ∈ edgesAlong b.effects (s.start b) → x ∈ (s.visited b).edges :=
    fun hx => mem_edges_visited.2 (.inr hx)
  by_cases hsame : (s.result b).sameAs (s.record b.id) = true
  · rw [start_congr (record_congr (records_visited_of_same hsame) _) hpreds] at hx
    exact .inl (recorded hx)
  · have hrec := record_visited_of_not_same hs.covers hb (by simpa using hsame)
    rcases (mem_edgesAlong_iff ((hs.visited h hb).nodup_start hb)).1 hx with hinner | ⟨r, hr, hreads⟩
    · exact .inl (recorded ((mem_edgesAlong_iff (hs.nodup_start hb)).2 (.inl hinner)))
    · have found : (s.start b).origin? r = some x.source → x ∈ (s.visited b).edges := fun hr =>
        recorded ((mem_edgesAlong_iff (hs.nodup_start hb)).2 (.inr ⟨r, hr, hreads⟩))
      rw [origin?_start, hrec, merged_congr hpreds] at hr
      cases hres : (s.result b).origin? r with
      | some o =>
        -- the visit has put it on record: it went past all statements, or the block makes it
        obtain rfl : o = x.source := by simpa [hres] using hr
        rw [result, origin?_outgoing] at hres
        split at hres
        · exact .inl (found hres)
        · exact .inr ((Site.feeds_iff_origin? ho hb).2 ⟨r, hres, hreads⟩)
      | none =>
        -- the visit did not find it at the end, so it was not on record before either
        have hnot : r ∉ (s.record b.id).identities := fun hr =>
          Definitions.origin?_eq_none_iff.1 hres ((hs.fits h hb).mem_result hr)
        refine .inl (found ?_)
        rw [origin?_start, Definitions.origin?_eq_none_iff.2 hnot, Option.none_or]
        simpa [hres] using hr

/-- **After a visit the blocks that do not wait are answered**, if they were before. -/
theorem answered_of_quiet (h : Linked sites) (ho : Owned sites) {s s' : Session} (hs : s.Sound sites)
    {p : Nat} {b : Site} {waiting waiting' : List Nat}
    (hold : ∀ q a, sites[q]? = some a → q ∉ p :: waiting → s.Answered a) (hp : sites[p]? = some b)
    (hv : visit sites b s waiting = .ok (s', waiting')) :
    ∀ q a, sites[q]? = some a → q ∉ waiting' → s'.Answered a := by
  intro q a hq hqw
  have hb := List.mem_of_getElem? hp
  obtain ⟨hpreds, hcase⟩ := visit_quiet h hs.covers hp hv hq hqw
  obtain ⟨rfl, -⟩ := visit_cases h hs.covers hb hv
  rcases hcase with rfl | ⟨hqold, hown⟩
  · obtain rfl : b = a := Option.some.inj (hp.symm.trans hq)
    exact hs.answered_visited h ho hb hpreds
  · intro x hx
    rw [start_congr hown hpreds] at hx
    exact (hold q a hq hqold x hx).imp_left fun hx => mem_edges_visited.2 (.inl hx)

end Session

/-- When a call has ended, all blocks are answered. -/
theorem Run.answered (h : Linked sites) (ho : Owned sites) {s s' : Session} {places : List Nat}
    (hs : s.Sound sites) (hrun : Run sites s (List.range sites.length) places s' []) {b : Site}
    (hb : b ∈ sites) : s'.Answered b :=
  hrun.forall_of_quiet h.resolved (I := fun s => s.Sound sites) (Q := Session.Answered)
    (fun hs => hs.covers) (fun hb hs => hs.visited h hb)
    (fun hs => Session.answered_of_quiet h ho hs) hs hb

/-! ## What a second call does -/

/-- **Where all blocks agree, each that waits is visited once** and nothing but
edges is found: those of its replay over the records as they are. -/
theorem exists_repeat (hres : Resolved sites) (waiting : List Nat) {s : Session}
    (hcov : s.Covers sites) (hagrees : ∀ b ∈ sites, s.Agrees b) (hw : ∀ p ∈ waiting, p < sites.length) :
    ∃ s', Run sites s waiting waiting s' [] ∧ s'.records = s.records ∧
      ∀ x, x ∈ s'.edges ↔ x ∈ s.edges ∨
        ∃ p ∈ waiting, ∃ b, sites[p]? = some b ∧ x ∈ edgesAlong b.effects (s.start b) := by
  induction waiting generalizing s with
  | nil => exact ⟨s, .stop, rfl, by simp⟩
  | cons p waiting ih =>
    obtain ⟨b, hp⟩ : ∃ b, sites[p]? = some b :=
      ⟨_, List.getElem?_eq_getElem (hw p (List.mem_cons_self ..))⟩
    have hb := List.mem_of_getElem? hp
    have hsame : (s.result b).sameAs (s.record b.id) = true :=
      Definitions.sameAs_iff.2 fun r => (hagrees b hb r).symm
    have hrecords := Session.records_visited_of_same hsame
    have hrec := Session.record_congr hrecords
    obtain ⟨waiting', hv, ⟨-, rfl⟩ | ⟨hdiff, -⟩⟩ := visit_ok hres hcov hb waiting
    · obtain ⟨s', hrun, hkept, hedges⟩ := ih (hcov.visited b)
        (fun a ha => (hagrees a ha).congr (hrec _) fun i _ => hrec i)
        fun q hq => hw q (List.mem_cons_of_mem _ hq)
      refine ⟨s', .visit hp hv hrun, hkept.trans hrecords, fun x => ?_⟩
      have hstart : ∀ a, (s.visited b).start a = s.start a := fun a =>
        Session.start_congr (hrec _) fun i _ => hrec i
      simp only [hedges, hstart, Session.mem_edges_visited, List.mem_cons, or_assoc]
      refine or_congr_right ⟨?_, ?_⟩
      · rintro (hx | ⟨q, hq, a, ha, hx⟩)
        · exact ⟨p, .inl rfl, b, hp, hx⟩
        · exact ⟨q, .inr hq, a, ha, hx⟩
      · rintro ⟨q, rfl | hq, a, ha, hx⟩
        · obtain rfl : b = a := Option.some.inj (hp.symm.trans ha)
          exact .inl hx
        · exact .inr ⟨q, hq, a, ha, hx⟩
    · rw [hsame] at hdiff
      cases hdiff

/-- Records that agree and are rooted hold what a block leaves, from where it
leaves it. So the block is replayed over what it feeds to itself. -/
theorem Session.Agrees.mem_edgesAlong_of_feeds (ho : Owned sites) {s : Session} {b : Site}
    (hb : b ∈ sites) (hagrees : s.Agrees b) (hrooted : s.Rooted b)
    (hnodup : (s.start b).identities.Nodup) {x : Edge} (hx : b.Feeds x) :
    x ∈ edgesAlong b.effects (s.start b) := by
  obtain ⟨r, hr, hreads⟩ := (Site.feeds_iff_origin? ho hb).1 hx
  have hdef : ¬ Clear b.effects r.name := fun hclear => by
    rw [origin?_outgoing, if_pos hclear] at hr
    cases hr
  have hown : r ∈ (s.record b.id).identities :=
    (hagrees r).2 (mem_identities_outgoing.2 (.inl (Definitions.exists_origin?_iff.1 ⟨_, hr⟩)))
  obtain ⟨o, ho'⟩ := Definitions.exists_origin?_iff.2 hown
  obtain rfl : x.source = o := Option.some.inj (hr.symm.trans (hrooted r o ho' hdef))
  refine (mem_edgesAlong_iff hnodup).2 (.inr ⟨r, ?_, hreads⟩)
  rw [Session.origin?_start, ho', Option.some_or]

theorem Session.Later.rooted (h : Linked sites) {s t : Session} (hl : Session.Later sites s t)
    (hs : s.Covers sites) (hrooted : ∀ b ∈ sites, s.Rooted b) : ∀ b ∈ sites, t.Rooted b := by
  refine (hl.keeps (P := fun t => t.Covers sites ∧ ∀ b ∈ sites, t.Rooted b) ?_ ⟨hs, hrooted⟩).2
  rintro s b hb ⟨hs, hrooted⟩
  refine ⟨hs.visited b, fun a ha => ?_⟩
  by_cases hid : a.id = b.id
  · obtain rfl := h.eq_of_id ha hb hid
    exact (hrooted a ha).visited hs ha
  · intro r o hr
    rw [Session.record_visited_of_ne hid] at hr
    exact hrooted a ha r o hr

/-- **A second call adds what blocks feed to themselves**, and changes no record. -/
theorem Linked.exists_second_call (h : Linked sites) (ho : Owned sites) :
    ∃ places s s', Run sites (.fresh sites) (List.range sites.length) places s [] ∧
      analyze sites none (.fresh sites) = .ok (s, ⟨places.length, false⟩) ∧
      analyze sites none s = .ok (s', ⟨sites.length, false⟩) ∧ s'.records = s.records ∧
      ∀ x, x ∈ s'.edges ↔ x ∈ s.edges ∨ ∃ b ∈ sites, b.Feeds x := by
  obtain ⟨places, s, hrun, hok, hs, hagrees⟩ := h.exists_finished
  have hrooted := (hrun.later h.resolved Session.fresh_covers).rooted h Session.fresh_covers
    fun b _ => Session.fresh_rooted b
  obtain ⟨s', hrun', hrecords, hedges⟩ := exists_repeat h.resolved (List.range sites.length)
    hs.covers hagrees fun p hp => List.mem_range.1 hp
  have hlen : (List.range sites.length).length ≤ visitBound sites s := by
    rw [List.length_range]
    exact Nat.le_add_right ..
  have hok' := hrun'.analyze_eq h.resolved hs.covers hlen
  rw [List.length_range] at hok'
  refine ⟨places, s, s', hrun, hok, hok', hrecords, fun x => ?_⟩
  rw [hedges]
  constructor
  · rintro (hx | ⟨p, -, b, hp, hx⟩)
    · exact .inl hx
    · have hb := List.mem_of_getElem? hp
      exact (hrun.answered h ho Session.fresh_sound hb x hx).imp_right fun hx => ⟨b, hb, hx⟩
  · rintro (hx | ⟨b, hb, hx⟩)
    · exact .inl hx
    · obtain ⟨p, hp⟩ := List.mem_iff_getElem?.1 hb
      exact .inr ⟨p, List.mem_range.2 (List.getElem?_eq_some_iff.1 hp).1, b, hp,
        (hagrees b hb).mem_edgesAlong_of_feeds ho hb (hrooted b hb) (hs.nodup_start hb) hx⟩

/-- **When a second call finds nothing new.** On the graph of a body a first call
without a budget ends, and a second one on the same state visits every block once.
It leaves every record as it was. The edges that it adds are those that blocks feed
to themselves. So it leaves the edges as they were just when all of these had been
found by the first call. -/
theorem Graph.second_call_iff {m : Code.Module} {function : Option String} {g : Graph}
    (hg : Graph.of m function = .ok g) (rules : Rules) :
    ∃ s o s', analyze (g.sites rules) none (.fresh (g.sites rules)) = .ok (s, o) ∧
      analyze (g.sites rules) none s = .ok (s', ⟨g.blocks.length, false⟩) ∧
      s'.records = s.records ∧
      (∀ x, x ∈ s'.edges ↔ x ∈ s.edges ∨ ∃ b ∈ g.sites rules, b.Feeds x) ∧
      ((∀ x, x ∈ s'.edges ↔ x ∈ s.edges) ↔ ∀ b ∈ g.sites rules, ∀ x, b.Feeds x → x ∈ s.edges) := by
  obtain ⟨places, s, s', -, hok, hok', hrecords, hedges⟩ :=
    ((Graph.of_linked hg).sites rules).exists_second_call (g.sites_owned rules)
  rw [Graph.sites, List.length_map, ← Graph.sites] at hok'
  refine ⟨s, _, s', hok, hok', hrecords, hedges, fun hall b hb x hx => ?_, fun hall x => ?_⟩
  · exact (hall x).1 ((hedges x).2 (.inr ⟨b, hb, hx⟩))
  · rw [hedges, or_iff_left_iff_imp]
    rintro ⟨b, hb, hx⟩
    exact hall b hb x hx

open Code in
/-- A name that is read and then bound. -/
def Code.Module.readThenBound : Module :=
  let x (line : Int) : Expr := .at ⟨line, 0, line, 1⟩ (.name "x")
  { body :=
      [.at ⟨1, 0, 1, 1⟩ (.expr (x 1)),
      .at ⟨2, 0, 2, 5⟩ (.assign [x 2] (.at ⟨2, 4, 2, 5⟩ (.constant (.int 1))))] }

/-- The hypothesis of `second_call_iff` holds of a module without branches. -/
theorem Graph.readThenBound_second_call_iff :
    Graph.of .readThenBound none = .ok (Graph.ofModule .readThenBound) ∧
      ∃ s o s', analyze ((Graph.ofModule .readThenBound).sites .empty) none
          (.fresh ((Graph.ofModule .readThenBound).sites .empty)) = .ok (s, o) ∧
        analyze ((Graph.ofModule .readThenBound).sites .empty) none s = .ok (s', ⟨1, false⟩) ∧
        s'.records = s.records ∧
        ((∀ x, x ∈ s'.edges ↔ x ∈ s.edges) ↔
          ∀ b ∈ (Graph.ofModule .readThenBound).sites .empty, ∀ x, b.Feeds x → x ∈ s.edges) := by
  have hg : Graph.of .readThenBound none = .ok (Graph.ofModule .readThenBound) := rfl
  obtain ⟨s, o, s', hok, hok', hrecords, -, hiff⟩ := Graph.second_call_iff hg .empty
  exact ⟨hg, s, o, s', hok, hok', hrecords, hiff⟩

/-- **A second call that finds an edge.** The first call visits the only block of the
module once, with nothing at its top, and finds no edge. The second one replays the
block over its own record, and leads from the binding back to the name in front
of it. -/
theorem Graph.readThenBound_second_call_adds :
    ∃ s o s' o', analyze ((Graph.ofModule .readThenBound).sites .empty) none
          (.fresh ((Graph.ofModule .readThenBound).sites .empty)) = .ok (s, o) ∧
        analyze ((Graph.ofModule .readThenBound).sites .empty) none s = .ok (s', o') ∧
        s.edges = [] ∧ s'.edges = [⟨⟨2, 0, 2, 5⟩, ⟨1, 0, 1, 1⟩⟩] := by
  have h : Reaching.Linked ((Graph.ofModule .readThenBound).sites .empty) :=
    (Graph.ofBody_linked ..).sites _
  obtain ⟨places, s, s', -, hok, hok', -⟩ := h.exists_second_call (Graph.sites_owned _ _)
  have hfound : ((analyze ((Graph.ofModule .readThenBound).sites .empty) none
      (.fresh ((Graph.ofModule .readThenBound).sites .empty))).toOption.bind fun r =>
        (analyze ((Graph.ofModule .readThenBound).sites .empty) none r.1).toOption.map fun r' =>
          (r.1.edges, r'.1.edges)) = some ([], [⟨⟨2, 0, 2, 5⟩, ⟨1, 0, 1, 1⟩⟩]) := by decide +kernel
  obtain ⟨hfirst, hsecond⟩ : s.edges = [] ∧ s'.edges = [⟨⟨2, 0, 2, 5⟩, ⟨1, 0, 1, 1⟩⟩] := by
    simpa [hok, hok', Except.toOption] using hfound
  exact ⟨s, _, s', _, hok, hok', hfirst, hsecond⟩

end Reaching
