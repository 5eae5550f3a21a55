/-
Blocks that do not wait are settled: visiting them again would change nothing.

A visit unsettles only the blocks behind the visited one, and these come to
wait. So when no block waits any more, the records solve the equations of the
analysis (`Run.agrees`), and every definition that arrives at the end of a block
is in its record.
-/
import Reaching.Proofs.Soundness

namespace Reaching

variable {sites : List Site}

/-! ## Places that wait -/

/-- Places of blocks, none of them twice. -/
structure Places (sites : List Site) (waiting : List Nat) : Prop where
  lt : ∀ p ∈ waiting, p < sites.length
  nodup : waiting.Nodup

theorem places_range : Places sites (List.range sites.length) where
  lt := fun _ hp => List.mem_range.1 hp
  nodup := List.nodup_range

theorem Places.visited (hres : Resolved sites) {s s' : Session} (hs : s.Covers sites) {p : Nat}
    {b : Site} {waiting waiting' : List Nat} (hw : Places sites (p :: waiting))
    (hp : sites[p]? = some b) (hv : visit sites b s waiting = .ok (s', waiting')) :
    Places sites waiting' := by
  have hlt : ∀ q ∈ waiting, q < sites.length := fun q hq => hw.lt q (List.mem_cons_of_mem _ hq)
  have hnodup := (List.nodup_cons.1 hw.nodup).2
  obtain ⟨-, ⟨-, rfl⟩ | ⟨-, hmem, hkeep, -⟩⟩ := visit_inversion hres hs (List.mem_of_getElem? hp) hv
  · exact ⟨hlt, hnodup⟩
  · refine ⟨fun q hq => ?_, hkeep hnodup⟩
    rcases (hmem q).1 hq with hq | ⟨i, -, hpos⟩
    · exact hlt q hq
    · obtain ⟨a, ha, -⟩ := position?_eq_some hpos
      exact (List.getElem?_eq_some_iff.1 ha).1

/-- **Where a block does not wait after a visit, nothing in front of it has
changed.** Either it is the visited block, or it did not wait before and its own
record is as it was. -/
theorem visit_quiet (h : Linked sites) {s s' : Session} (hs : s.Covers sites) {p q : Nat} {a b : Site}
    {waiting waiting' : List Nat} (hp : sites[p]? = some b)
    (hv : visit sites b s waiting = .ok (s', waiting')) (hq : sites[q]? = some a) (hqw : q ∉ waiting') :
    (∀ i ∈ a.preds, s'.record i = s.record i) ∧
      (q = p ∨ (q ∉ p :: waiting ∧ s'.record a.id = s.record a.id)) := by
  have hb := List.mem_of_getElem? hp
  obtain ⟨rfl, ⟨hsame, rfl⟩ | ⟨-, hmem, -⟩⟩ := visit_cases h hs hb hv
  · -- no record has changed
    have hrec := Session.record_congr (Session.records_visited_of_same hsame)
    refine ⟨fun i _ => hrec i, ?_⟩
    by_cases hqp : q = p
    · exact .inl hqp
    · exact .inr ⟨by simp [hqp, hqw], hrec _⟩
  · -- the visited block's record has changed, so it is not before a block that does not wait
    have ha := List.mem_of_getElem? hq
    have hbehind : b.id ∉ a.preds := fun hpre =>
      hqw ((hmem q).2 (.inr ⟨a, hq, (h.agree b hb a ha).2 hpre⟩))
    refine ⟨fun i hi => Session.record_visited_of_ne fun hid => hbehind (hid ▸ hi), ?_⟩
    by_cases hqp : q = p
    · exact .inl hqp
    · have hne : a.id ≠ b.id := fun hid => hqp (h.place_inj hq hp hid)
      refine .inr ⟨?_, Session.record_visited_of_ne hne⟩
      simp only [List.mem_cons, not_or]
      exact ⟨hqp, fun hq' => hqw ((hmem q).2 (.inl hq'))⟩

/-! ## Blocks that agree -/

namespace Session

/-- The record of a block holds what a visit of it would find. -/
def Agrees (s : Session) (b : Site) : Prop :=
  ∀ r, r ∈ (s.record b.id).identities ↔ r ∈ (s.result b).identities

/-- What the blocks before a block contribute depends on their records only. -/
theorem merged_congr {s t : Session} {ids : List BlockId} (h : ∀ i ∈ ids, t.record i = s.record i)
    (ds : Definitions) : t.merged ids ds = s.merged ids ds := by
  unfold merged
  induction ids generalizing ds with
  | nil => rfl
  | cons i ids ih =>
    rw [List.foldl_cons, List.foldl_cons, h i (List.mem_cons_self ..)]
    exact ih (fun j hj => h j (List.mem_cons_of_mem _ hj)) _

theorem Agrees.congr {s t : Session} {b : Site} (hs : s.Agrees b)
    (hown : t.record b.id = s.record b.id) (hpreds : ∀ i ∈ b.preds, t.record i = s.record i) :
    t.Agrees b := by
  intro r
  rw [result, start, hown, merged_congr hpreds]
  exact hs r

/-- A visited block agrees, unless a block before it has changed: replaying once
more over the result gives the result. -/
theorem agrees_visited {s : Session} (hs : s.Covers sites) {b : Site} (hb : b ∈ sites)
    (hpreds : ∀ i ∈ b.preds, (s.visited b).record i = s.record i) : (s.visited b).Agrees b := by
  intro r
  rw [mem_result, mem_identities_visited_self hs hb, merged_congr hpreds, mem_result]
  constructor
  · rintro (hr | ⟨hr, hclear⟩)
    · exact .inl hr
    · exact .inr ⟨.inr ⟨hr, hclear⟩, hclear⟩
  · rintro (hr | ⟨hr, -⟩)
    · exact .inl hr
    · exact hr

/-- **After a visit the blocks that do not wait agree**, if they did before. -/
theorem agrees_of_quiet (h : Linked sites) {s s' : Session} (hs : s.Covers sites) {p : Nat} {b : Site}
    {waiting waiting' : List Nat}
    (hagrees : ∀ q a, sites[q]? = some a → q ∉ p :: waiting → s.Agrees a)
    (hp : sites[p]? = some b) (hv : visit sites b s waiting = .ok (s', waiting')) :
    ∀ q a, sites[q]? = some a → q ∉ waiting' → s'.Agrees a := by
  intro q a hq hqw
  obtain ⟨hpreds, rfl | ⟨hqold, hown⟩⟩ := visit_quiet h hs hp hv hq hqw
  · obtain rfl : b = a := Option.some.inj (hp.symm.trans hq)
    obtain ⟨rfl, -⟩ := visit_cases h hs (List.mem_of_getElem? hp) hv
    exact agrees_visited hs (List.mem_of_getElem? hp) hpreds
  · exact (hagrees q a hq hqold).congr hown hpreds

/-! ## Solutions -/

/-- A definition is found in front of a point when the records of the blocks
before its block are replayed up to it. -/
def Finds (sites : List Site) (s : Session) (r : Reference) (p : Point) : Prop :=
  ∀ b ∈ sites, b.id = p.block →
    r ∈ (outgoing (b.effects.take p.index) (s.merged b.preds [])).identities

theorem Agrees.mem_of_finds {s : Session} {b : Site} (hs : s.Agrees b) {r : Reference}
    (hr : r ∈ (outgoing b.effects (s.merged b.preds [])).identities) :
    r ∈ (s.record b.id).identities :=
  (hs r).2 (mem_result.2 (.inl hr))

/-- Where all blocks agree, what is found in front of a step is found behind it. -/
theorem Finds.step (h : Linked sites) {s : Session} (hs : ∀ b ∈ sites, s.Agrees b) {r : Reference}
    {p q : Point} (hr : Finds sites s r p) (hstep : ClearStep sites r.name p q) :
    Finds sites s r q := by
  cases hstep with
  | @statement b i e hb he hclear =>
    intro a ha hid
    obtain rfl := h.eq_of_id ha hb hid
    rw [outgoing_take_succ he, Effect.mem_identities_apply]
    exact .inr ⟨hr a ha hid, hclear⟩
  | @link b j hb hj =>
    intro a ha hid
    obtain rfl : a.id = j := hid
    have hfound := hr b hb rfl
    simp only [Site.bottom, List.take_length] at hfound
    simp only [List.take_zero, outgoing, List.foldl_nil]
    exact mem_identities_merged.2 (.inr ⟨b.id, (h.agree b hb a ha).1 hj, (hs b hb).mem_of_finds hfound⟩)

/-- **Where all blocks agree, everything that arrives is found.** -/
theorem finds_of_arrivesFrom (h : Linked sites) {s : Session} (hs : ∀ b ∈ sites, s.Agrees b)
    {origin : Span} {r : Reference} {p : Point} (harr : ArrivesFrom sites origin r p) :
    Finds sites s r p := by
  obtain ⟨b, hb, i, e, he, -, hmakes, hpath⟩ := harr
  induction hpath with
  | refl =>
    intro a ha hid
    obtain rfl := h.eq_of_id ha hb hid
    rw [outgoing_take_succ he, Effect.mem_identities_apply]
    exact .inl hmakes
  | tail _ hstep ih => exact ih.step h hs hstep

/-- **Right records that all agree are exact**: a block's record holds the
definitions that arrive at its end. -/
theorem Sound.mem_record_iff (h : Linked sites) {s : Session} (hs : s.Sound sites)
    (hagrees : ∀ b ∈ sites, s.Agrees b) {b : Site} (hb : b ∈ sites) {r : Reference} :
    r ∈ (s.record b.id).identities ↔ Arrives sites r b.bottom := by
  refine ⟨hs.arrives b hb r, fun ⟨origin, harr⟩ => (hagrees b hb).mem_of_finds ?_⟩
  have hfound := finds_of_arrivesFrom h hagrees harr b hb rfl
  rwa [Site.bottom, List.take_length] at hfound

end Session

/-- **At the end of a run from all blocks, all blocks agree.** -/
theorem Run.agrees (h : Linked sites) {s s' : Session} {places : List Nat} (hs : s.Sound sites)
    (hrun : Run sites s (List.range sites.length) places s' []) {b : Site} (hb : b ∈ sites) :
    s'.Agrees b :=
  hrun.forall_of_quiet h.resolved (I := (·.Sound sites)) (Q := Session.Agrees) (·.covers)
    (fun hb hs => hs.visited h hb) (fun hs => Session.agrees_of_quiet h hs.covers) hs hb

end Reaching
