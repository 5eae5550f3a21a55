/-
What a budget leaves of a run of the analysis.

The visits that a call makes do not depend on its budget, only how many of them it makes: a
call with a budget makes the first visits of the run that a call without one makes, and the rest
of the run is what the blocks that still wait lead to (`Run.cut`). So it is cut short just when
visits are left, and not where the last block has been visited as the budget is used up.

The run without a budget ends from any state, also from one whose records hold definitions that
no statement makes. Such a state is a state of the analysis with one more block, which makes what
is recorded, has no links and is never visited (`Run.of_beside`); and there the records are
bounded (`Session.Proper.exists_run`).
-/
import Mathlib.Data.Fintype.EquivFin
import Reaching.Proofs.Calls

namespace Reaching

variable {sites : List Site}

/-! ## A block beside the others -/

/-- A block without links that makes some definitions. -/
def Site.apart (id : BlockId) (ds : Definitions) : Site := ⟨id, [{ Effect.none with definitions := ds }], [], []⟩

/-- A state with one more record, which is empty. -/
def Session.beside (s : Session) (id : BlockId) : Session := { s with records := s.records ++ [(id, [])] }

namespace Session

variable {s : Session} {i j : BlockId}

theorem record?_beside_of_ne (h : j ≠ i) : (s.beside j).record? i = s.record? i := by
  simp [record?, beside, h]

theorem record_beside_of_ne (h : j ≠ i) : (s.beside j).record i = s.record i := by
  rw [record, record, record?_beside_of_ne h]

theorem record?_beside_self (h : ∀ r ∈ s.records, r.1 ≠ j) : (s.beside j).record? j = some [] := by
  have hnone : s.records.find? (fun r => r.1 = j) = none := by simpa using h
  simp [record?, beside, hnone]

theorem setRecord_beside (h : j ≠ i) (ds : Definitions) :
    (s.beside j).setRecord i ds = (s.setRecord i ds).beside j := by
  simp [setRecord, beside, h]

end Session

section Beside

variable {s : Session} {b c : Site}

/-- The links of a block do not lead to a block beside it. -/
structure Site.Misses (b : Site) (id : BlockId) : Prop where
  self : id ≠ b.id
  links : ∀ i, i ∈ b.preds ∨ i ∈ b.succs → id ≠ i

theorem position?_beside {i : BlockId} (h : c.id ≠ i) :
    position? (sites ++ [c]) i = position? sites i := by
  simp [position?, List.zipIdx_append, h]

theorem enqueue_beside {ids : List BlockId} (h : ∀ i ∈ ids, c.id ≠ i) (waiting : List Nat) :
    enqueue (sites ++ [c]) waiting ids = enqueue sites waiting ids := by
  unfold enqueue
  induction ids generalizing waiting with
  | nil => rfl
  | cons i ids ih =>
    rw [List.foldlM_cons, List.foldlM_cons, position?_beside (h i (List.mem_cons_self ..))]
    refine bind_congr fun waiting => ih (fun j hj => h j (List.mem_cons_of_mem _ hj)) waiting

theorem incoming_beside (h : b.Misses c.id) : (s.beside c.id).incoming b = s.incoming b := by
  have hlinks : ∀ i ∈ b.preds, c.id ≠ i := fun i hi => h.links i (.inl hi)
  unfold Session.incoming
  rw [Session.record_beside_of_ne h.self]
  generalize s.record b.id = ds
  generalize b.preds = ids at hlinks
  induction ids generalizing ds with
  | nil => rfl
  | cons i ids ih =>
    rw [List.foldlM_cons, List.foldlM_cons, Session.record?_beside_of_ne (hlinks i (List.mem_cons_self ..))]
    exact bind_congr fun ds => ih ds fun j hj => hlinks j (List.mem_cons_of_mem _ hj)

/-- **A visit does not notice a block beside the others.** -/
theorem visit_beside (h : b.Misses c.id) (waiting : List Nat) :
    visit (sites ++ [c]) b (s.beside c.id) waiting =
      (visit sites b s waiting).map fun r => (r.1.beside c.id, r.2) := by
  unfold visit
  rw [incoming_beside h, Session.record_beside_of_ne h.self]
  cases s.incoming b with
  | error e => rfl
  | ok ds =>
    simp only [bind, Except.bind]
    split
    · rfl
    · rw [enqueue_beside fun i hi => h.links i (.inr hi)]
      cases enqueue sites waiting b.succs with
      | error e => rfl
      | ok waiting =>
        simp only [Except.map, ← Session.setRecord_beside h.self]
        rfl

/-- **A run that begins beside another block** is one of the other blocks alone. -/
theorem Run.of_beside (hres : Resolved sites) (hmiss : ∀ b ∈ sites, b.Misses c.id) {t t' : Session}
    {waiting places waiting' : List Nat} (hrun : Run (sites ++ [c]) t waiting places t' waiting') :
    ∀ {s : Session}, t = s.beside c.id → s.Covers sites → Places sites waiting →
      ∃ s', t' = s'.beside c.id ∧ Run sites s waiting places s' waiting' := by
  induction hrun with
  | stop => exact fun ht _ _ => ⟨_, ht, .stop⟩
  | @visit t t₁ t₂ p b waiting waiting₁ waiting₂ places hp hv _ ih =>
    rintro s rfl hs hw
    rw [List.getElem?_append_left (hw.lt p (List.mem_cons_self ..))] at hp
    have hb := List.mem_of_getElem? hp
    obtain ⟨w, hok, -⟩ := visit_ok hres hs hb waiting
    rw [visit_beside (hmiss b hb), hok] at hv
    obtain ⟨rfl, rfl⟩ : (s.visited b).beside c.id = t₁ ∧ w = waiting₁ := by simpa [Except.map] using hv
    obtain ⟨s', ht', hrun⟩ := ih rfl (hs.visited b) (hw.visited hres hs hp hok)
    exact ⟨s', ht', .visit hp hok hrun⟩

end Beside

/-! ## Any state -/

namespace Session

/-- Every block has a record, and the records are sets. -/
structure Proper (sites : List Site) (s : Session) : Prop where
  covers : s.Covers sites
  nodup : ∀ b ∈ sites, (s.record b.id).identities.Nodup

/-- The definitions in all records. -/
def recorded (s : Session) : Definitions := s.records.flatMap (·.2)

theorem length_recorded (s : Session) : s.recorded.length = total (fun r => r.2.length) s.records :=
  length_flatMap_eq_total _ _

theorem mem_recorded {s : Session} {i : BlockId} {d : Definition} (h : d ∈ s.record i) : d ∈ s.recorded := by
  unfold record record? at h
  cases hfind : s.records.find? fun r => r.1 = i with
  | none => simp [hfind] at h
  | some r => exact List.mem_flatMap.2 ⟨r, List.mem_of_find?_eq_some hfind, by simpa [hfind] using h⟩

/-- **Beside a block that makes what is recorded**, a proper state is bounded. -/
theorem Proper.bounded_beside {s : Session} (hs : s.Proper sites) {id : BlockId}
    (hmiss : ∀ b ∈ sites, b.Misses id) (hfree : ∀ r ∈ s.records, r.1 ≠ id) :
    (s.beside id).Bounded (sites ++ [.apart id s.recorded]) := by
  have hself : (s.beside id).record id = [] := by
    rw [record, record?_beside_self hfree]
    rfl
  refine ⟨fun b hb => ?_, fun b hb => ?_, fun b hb r hr => ?_⟩ <;>
    rcases List.mem_append.1 hb with hb | hb
  · rw [record?_beside_of_ne (hmiss b hb).self]
    exact hs.covers b hb
  · obtain rfl := List.mem_singleton.1 hb
    show ((s.beside id).record? id).isSome
    rw [record?_beside_self hfree]
    rfl
  · rw [record_beside_of_ne (hmiss b hb).self]
    exact hs.nodup b hb
  · obtain rfl := List.mem_singleton.1 hb
    show ((s.beside id).record id).identities.Nodup
    rw [hself]
    exact .nil
  · rw [record_beside_of_ne (hmiss b hb).self] at hr
    obtain ⟨d, hd, rfl⟩ := List.mem_map.1 hr
    refine List.mem_flatMap.2 ⟨_, List.mem_append_right _ (List.mem_singleton_self _), ?_⟩
    exact List.mem_flatMap.2 ⟨_, List.mem_singleton_self _, List.mem_map_of_mem (mem_recorded hd)⟩
  · obtain rfl := List.mem_singleton.1 hb
    have hr : r ∈ ((s.beside id).record id).identities := hr
    rw [hself] at hr
    cases hr

end Session

theorem total_append {α : Type} (measure : α → Nat) (items others : List α) :
    total measure (items ++ others) = total measure items + total measure others := by
  induction items with
  | nil => simp [total]
  | cons a items ih =>
    simp only [total, List.cons_append, List.foldr_cons] at ih ⊢
    omega

/-- A number that no block and no record has. -/
theorem exists_unused (sites : List Site) (s : Session) (hres : Resolved sites) :
    ∃ id, (∀ b ∈ sites, b.Misses id) ∧ ∀ r ∈ s.records, r.1 ≠ id := by
  obtain ⟨id, hid⟩ := Infinite.exists_notMem_finset (sites.map (·.id) ++ s.records.map (·.1)).toFinset
  simp only [List.mem_toFinset, List.mem_append, List.mem_map, not_or, not_exists, not_and] at hid
  refine ⟨id, fun b hb => ⟨fun h => hid.1 b hb h.symm, fun i hi h => ?_⟩, fun r hr => hid.2 r hr⟩
  obtain ⟨a, ha, rfl⟩ := hres b hb i hi
  exact hid.1 a ha h.symm

/-- **A call without a budget comes to an end from every proper state.** -/
theorem Session.Proper.exists_run (hres : Resolved sites) {s : Session} (hs : s.Proper sites) :
    ∃ places s', Run sites s (List.range sites.length) places s' [] ∧
      analyze sites none s = .ok (s', ⟨places.length, false⟩) := by
  obtain ⟨id, hmiss, hfree⟩ := exists_unused sites s hres
  have hres' : Resolved (sites ++ [.apart id s.recorded]) := by
    intro a ha i hi
    rcases List.mem_append.1 ha with ha | ha
    · obtain ⟨b, hb, hid⟩ := hres a ha i hi
      exact ⟨b, List.mem_append_left _ hb, hid⟩
    · obtain rfl := List.mem_singleton.1 ha
      simp [Site.apart] at hi
  have hplaces : Places (sites ++ [.apart id s.recorded]) (List.range sites.length) :=
    ⟨fun p hp => (places_range.lt p hp).trans_le (by simp), places_range.nodup⟩
  have hmade : distinctMade (sites ++ [.apart id s.recorded]) ≤
      total (fun b => total (fun e => e.definitions.length) b.effects) sites
        + total (fun r => r.2.length) s.records := by
    refine (distinctMade_le _).trans (Nat.le_of_eq ?_)
    rw [total_append, ← s.length_recorded]
    rfl
  have hpotential : (s.beside id).potential _ (List.range sites.length) ≤ _ :=
    potential_le_of_le _ (Nat.le_of_eq List.length_range) hmade
  obtain ⟨places, t, hrun, hlen⟩ :=
    exists_run_of_potential_le hres' (hs.bounded_beside hmiss hfree) hplaces hpotential
  obtain ⟨s', -, hrun⟩ := hrun.of_beside hres hmiss rfl hs.covers places_range
  refine ⟨places, s', hrun, hrun.analyze_eq hres hs.covers (hlen.trans (Nat.le_of_eq ?_))⟩
  rw [total_append]
  rfl

/-! ## Cut runs -/

/-- **Visits up to a number are the first ones of a run**, and the rest of the run is what comes
after them. -/
theorem Run.cut {s s' : Session} {waiting places waiting' : List Nat}
    (h : Run sites s waiting places s' waiting') (hend : waiting' = []) (n : Nat) :
    ∃ t rest, visitUpTo sites n s waiting = .ok (t, rest) ∧
      Run sites s waiting (places.take n) t rest ∧ Run sites t rest (places.drop n) s' [] := by
  induction h generalizing n with
  | @stop s waiting =>
    subst hend
    refine ⟨s, [], by cases n <;> rfl, ?_, ?_⟩
    · rw [List.take_nil]
      exact .stop
    · rw [List.drop_nil]
      exact .stop
  | visit hp hv hrest ih =>
    cases n with
    | zero => exact ⟨_, _, rfl, .stop, .visit hp hv (hend ▸ hrest)⟩
    | succ n =>
      obtain ⟨t, rest, hok, hrun, hleft⟩ := ih hend n
      refine ⟨t, rest, ?_, .visit hp hv hrun, hleft⟩
      rw [visitUpTo, hp]
      simp only [hv]
      exact hok

/-- The visits of a run behind the first ones are a run from where these lead. -/
theorem Run.of_append {s t u : Session} {waiting rest rest' places more : List Nat}
    (h : Run sites s waiting places t rest) (h' : Run sites s waiting (places ++ more) u rest') :
    Run sites t rest more u rest' := by
  induction h with
  | stop => exact h'
  | visit hp hv _ ih =>
    cases h' with
    | visit hp' hv' hrest =>
      obtain rfl := Option.some.inj (hp.symm.trans hp')
      obtain ⟨rfl, rfl⟩ := Prod.mk.inj (Except.ok.inj (hv.symm.trans hv'))
      exact ih hrest

/-- Blocks wait just when a run to the end goes on. -/
theorem Run.waiting_eq_nil_iff {s s' : Session} {waiting places : List Nat}
    (h : Run sites s waiting places s' []) : waiting = [] ↔ places = [] := by
  cases h <;> simp

/-- What a call with a budget makes of a run: some of its visits, from which it goes on to its
end. -/
structure Cut (sites : List Site) (s : Session) (places : List Nat) (s' : Session) (n : Nat) (t : Session) :
    Prop where
  call : analyze sites (some (n : Int)) s = .ok (t, ⟨min n places.length, decide (n < places.length)⟩)
  visits : t.visits = s.visits + min n places.length
  halves : ∃ rest, Run sites s (List.range sites.length) (places.take n) t rest ∧
    Run sites t rest (places.drop n) s' []

theorem Run.exists_cut (hres : Resolved sites) {s s' : Session} (hs : s.Covers sites) {places : List Nat}
    (h : Run sites s (List.range sites.length) places s' []) (n : Nat) :
    ∃ t, Cut sites s places s' n t := by
  obtain ⟨t, rest, hok, hrun, hleft⟩ := h.cut rfl n
  have hvisits : t.visits = s.visits + min n places.length := by
    rw [hrun.visits_eq hres hs, List.length_take]
  refine ⟨t, ?_, hvisits, rest, hrun, hleft⟩
  have hmore : (!rest.isEmpty) = decide (n < places.length) := by
    rw [Bool.eq_iff_iff, decide_eq_true_eq, Bool.not_eq_true', List.isEmpty_eq_false_iff, ne_eq,
      hleft.waiting_eq_nil_iff, List.drop_eq_nil_iff, Nat.not_le]
  simp only [analyze, visitLimit, Int.toNat_natCast, hok, bind, Except.bind, Option.isSome_some, Bool.true_and,
    hmore, hvisits, Nat.add_sub_cancel_left]

/-- What a call with a budget has found, one with a larger budget finds and so does one with none. -/
theorem Cut.edges_subset (hres : Resolved sites) {s s' t u : Session} (hs : s.Covers sites) {places : List Nat}
    {n m : Nat} (ht : Cut sites s places s' n t) (hu : Cut sites s places s' m u) (hnm : n ≤ m) :
    t.edges ⊆ u.edges ∧ t.edges ⊆ s'.edges := by
  obtain ⟨rest, hrun, hleft⟩ := ht.halves
  obtain ⟨rest', hrun', -⟩ := hu.halves
  have ht := (hrun.later hres hs).covers hs
  have hsplit : places.take m = places.take n ++ (places.take m).drop n := by
    rw [← Nat.min_eq_left hnm, ← List.take_take, Nat.min_eq_left hnm, List.take_append_drop]
  rw [hsplit] at hrun'
  exact ⟨fun x => ((hrun.of_append hrun').later hres ht).edges, fun x => (hleft.later hres ht).edges⟩

/-- **A budget cuts a run to its prefix.** From every proper state a call without a budget ends
after some visits. A call with a budget makes the first of these visits, as many as the budget
allows, counts them, and leaves what the unbudgeted one has found by then; it is cut short just
if visits are left. So a larger budget, or none, finds at least the same edges. -/
theorem Graph.Resolved.budget_cuts {g : Graph} (hg : g.Resolved) (rules : Rules) {s : Session}
    (hs : s.Proper (g.sites rules)) :
    ∃ places s', Run (g.sites rules) s (List.range (g.sites rules).length) places s' [] ∧
      analyze (g.sites rules) none s = .ok (s', ⟨places.length, false⟩) ∧
      ∃ cut : Nat → Session, (∀ n, Cut (g.sites rules) s places s' n (cut n)) ∧
        (∀ n m, n ≤ m → (cut n).edges ⊆ (cut m).edges) ∧ ∀ n, (cut n).edges ⊆ s'.edges := by
  have hres := hg.sites rules
  obtain ⟨places, s', hrun, hok⟩ := hs.exists_run hres
  choose cut hcut using hrun.exists_cut hres hs.covers
  exact ⟨places, s', hrun, hok, cut, hcut,
    fun n m hnm => ((hcut n).edges_subset hres hs.covers (hcut m) hnm).1,
    fun n => ((hcut n).edges_subset hres hs.covers (hcut n) (Nat.le_refl n)).2⟩

/-- A state in which a block has a definition on record that no statement makes. -/
def Session.foreign : Session :=
  { records := [(0, [{ name := "z", span := ⟨9, 0, 9, 1⟩, kind := .declared, owner := default }]), (1, [])] }

theorem Session.foreign_proper : Session.foreign.Proper (Graph.shared.sites .default) where
  covers := by unfold Session.Covers; decide +kernel
  nodup := by decide +kernel

/-- From this state a call makes five visits. Two of them are cut short, five are not. -/
theorem Graph.shared_budget_cuts :
    Graph.shared.Resolved ∧ Session.foreign.Proper (Graph.shared.sites .default) ∧
      ∃ s' t t', analyze (Graph.shared.sites .default) none .foreign = .ok (s', ⟨5, false⟩) ∧
        analyze (Graph.shared.sites .default) (some 2) .foreign = .ok (t, ⟨2, true⟩) ∧
        analyze (Graph.shared.sites .default) (some 5) .foreign = .ok (t', ⟨5, false⟩) ∧
        t.edges ⊆ t'.edges ∧ t'.edges ⊆ s'.edges := by
  obtain ⟨places, s', -, hok, cut, hcut, hedges, hall⟩ :=
    Graph.Resolved.budget_cuts Graph.shared_resolved .default Session.foreign_proper
  have hfive : (analyze (Graph.shared.sites .default) none Session.foreign).toOption.map (·.2) =
      some ⟨5, false⟩ := by decide +kernel
  have hlength : places.length = 5 := by simpa [hok, Except.toOption] using hfive
  have htwo := (hcut 2).call
  have hfull := (hcut 5).call
  rw [hlength] at hok htwo hfull
  exact ⟨Graph.shared_resolved, Session.foreign_proper, s', cut 2, cut 5, hok, htwo, hfull,
    hedges 2 5 (by decide), hall 5⟩

end Reaching
