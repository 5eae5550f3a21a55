/-
Calls of the analysis one after another on the same state.

A budget stops a call after so many visits. The blocks that wait then are
forgotten, and the next call starts with all blocks waiting. What all calls do to
the state is to visit blocks (`Session.Later`), so what every visit keeps holds at
every moment of every call (`Later.keeps`). Where links lead to blocks no call
fails (`exists_analyzeAll`), and one without a budget comes to an end wherever
earlier calls have left the state (`Graph.Resolved.calls_end`).
-/
import Reaching.Proofs.Exactness

namespace Reaching

/-- Calls of the analysis one after another, each with a budget of its own. -/
def analyzeAll (sites : List Site) (budgets : List (Option Int)) (s : Session) :
    Except UnknownBlock Session :=
  budgets.foldlM (fun s budget => (analyze sites budget s).map (·.1)) s

variable {sites : List Site}

/-! ## What calls keep -/

namespace Session

theorem Later.bounded (hres : Resolved sites) {s t : Session} (h : Later sites s t)
    (hs : s.Bounded sites) : t.Bounded sites :=
  h.keeps (fun hb hs => hs.visited hres hb) hs

/-- Where blocks have numbers of their own, a record that fits its block goes on
to do so. -/
theorem Later.fits (hdistinct : (sites.map (·.id)).Nodup) {s t : Session} (h : Later sites s t)
    (hcov : s.Covers sites) (hs : ∀ b ∈ sites, s.Fits b) : ∀ b ∈ sites, t.Fits b := by
  refine (h.keeps (P := fun t => t.Covers sites ∧ ∀ b ∈ sites, t.Fits b) ?_ ⟨hcov, hs⟩).2
  rintro s b hb ⟨hcov, hs⟩
  refine ⟨hcov.visited b, fun a ha => ?_⟩
  by_cases hid : a.id = b.id
  · obtain rfl : a = b := List.inj_on_of_nodup_map hdistinct ha hb hid
    exact fits_visited hcov hb
  · exact (hs a ha).visited_of_ne hid

end Session

/-! ## Calls never fail -/

/-- Visits up to a number, more of them after those. -/
theorem visitUpTo_add (n m : Nat) (s : Session) (waiting : List Nat) :
    visitUpTo sites (n + m) s waiting =
      (visitUpTo sites n s waiting).bind fun r => visitUpTo sites m r.1 r.2 := by
  induction n generalizing s waiting with
  | zero => simp [visitUpTo, Except.bind]
  | succ n ih =>
    rw [Nat.succ_add]
    cases waiting with
    | nil => cases m <;> simp [visitUpTo, Except.bind]
    | cons p waiting =>
      rw [visitUpTo, visitUpTo]
      cases hp : sites[p]? with
      | none => exact ih s waiting
      | some b =>
        simp only
        cases hv : visit sites b s waiting with
        | error e => rfl
        | ok r => exact ih r.1 r.2

/-- **Visiting never fails** where links lead to blocks: it makes a run. -/
theorem exists_visitUpTo (hres : Resolved sites) (n : Nat) {s : Session} {waiting : List Nat}
    (hs : s.Covers sites) (hw : Places sites waiting) :
    ∃ places s' waiting', Run sites s waiting places s' waiting' ∧ Places sites waiting' ∧
      visitUpTo sites n s waiting = .ok (s', waiting') := by
  induction n generalizing s waiting with
  | zero => exact ⟨[], s, waiting, .stop, hw, rfl⟩
  | succ n ih =>
    cases waiting with
    | nil => exact ⟨[], s, [], .stop, hw, rfl⟩
    | cons p waiting =>
      obtain ⟨b, hp⟩ : ∃ b, sites[p]? = some b :=
        ⟨_, List.getElem?_eq_getElem (hw.lt p (List.mem_cons_self ..))⟩
      have hb := List.mem_of_getElem? hp
      obtain ⟨waiting₁, hv, -⟩ := visit_ok hres hs hb waiting
      obtain ⟨places, s', waiting', hrun, hw', hok⟩ :=
        ih (hs.visited b) (hw.visited hres hs hp hv)
      refine ⟨p :: places, s', waiting', .visit hp hv hrun, hw', ?_⟩
      rw [visitUpTo, hp]
      simp only [hv]
      exact hok

/-- A call never fails, whatever its budget. -/
theorem exists_analyze (hres : Resolved sites) (budget : Option Int) {s : Session}
    (hs : s.Covers sites) :
    ∃ s' o, analyze sites budget s = .ok (s', o) ∧ Session.Later sites s s' := by
  obtain ⟨places, s', waiting', hrun, -, hok⟩ :=
    exists_visitUpTo hres (visitLimit sites budget s) hs places_range
  refine ⟨s', ⟨s'.visits - s.visits, budget.isSome && !waiting'.isEmpty⟩, ?_, hrun.later hres hs⟩
  simp only [analyze, hok, bind, Except.bind]

/-- **Calls one after another never fail**, whatever their budgets. -/
theorem exists_analyzeAll (hres : Resolved sites) (budgets : List (Option Int)) {s : Session}
    (hs : s.Covers sites) :
    ∃ s', analyzeAll sites budgets s = .ok s' ∧ Session.Later sites s s' := by
  induction budgets generalizing s with
  | nil => exact ⟨s, rfl, .refl⟩
  | cons budget budgets ih =>
    obtain ⟨s₁, o, hok, hlater⟩ := exists_analyze hres budget hs
    obtain ⟨s', hoks, hlaters⟩ := ih (hlater.covers hs)
    refine ⟨s', ?_, hlater.trans hlaters⟩
    rw [analyzeAll, List.foldlM_cons, hok]
    exact hoks

/-- **What a call without a budget brings about and later states keep** holds after
calls of which one had no budget. -/
theorem analyzeAll_of_none (hres : Resolved sites) {Q P : Session → Prop}
    (hcov : ∀ {s : Session}, Q s → s.Covers sites)
    (hbefore : ∀ {s t : Session}, Session.Later sites s t → Q s → Q t)
    (hafter : ∀ {s t : Session}, Session.Later sites s t → P s → P t)
    (hcall : ∀ {s : Session}, Q s → ∃ t o, analyze sites none s = .ok (t, o) ∧ P t)
    {budgets : List (Option Int)} (hnone : none ∈ budgets) {s s' : Session} (hs : Q s)
    (hok : analyzeAll sites budgets s = .ok s') : P s' := by
  induction budgets generalizing s with
  | nil => cases hnone
  | cons budget budgets ih =>
    obtain ⟨s₁, o, hok₁, hlater₁⟩ := exists_analyze hres budget (hcov hs)
    rw [analyzeAll, List.foldlM_cons, hok₁] at hok
    have hs₁ := hbefore hlater₁ hs
    by_cases hmore : none ∈ budgets
    · exact ih hmore hs₁ hok
    · obtain rfl : none = budget := (List.mem_cons.1 hnone).resolve_right hmore
      obtain ⟨s₂, o₂, hok₂, hP⟩ := hcall hs
      obtain ⟨rfl, -⟩ : s₁ = s₂ ∧ o = o₂ := by simpa using hok₁.symm.trans hok₂
      obtain ⟨s₃, hok₃, hlater₃⟩ := exists_analyzeAll hres budgets (hcov hs₁)
      obtain rfl : s₃ = s' := Except.ok.inj (hok₃.symm.trans hok)
      exact hafter hlater₃ hP

/-! ## Calls come to an end -/

theorem total_map {α β : Type} (f : α → β) (measure : β → Nat) (items : List α) :
    total measure (items.map f) = total (fun a => measure (f a)) items := by
  simp only [total, List.foldr_map]

/-- Blocks with numbers of their own and records that fit them are visited again
only when a record has grown. -/
theorem potential_le_of_fits (hdistinct : (sites.map (·.id)).Nodup) {s : Session}
    (hs : ∀ b ∈ sites, s.Fits b) :
    s.potential sites (List.range sites.length) ≤
      sites.length + distinctMade sites * total (fun b => b.succs.length) sites := by
  have hchanges : ∀ i, s.changesLeft sites (List.range sites.length) i ≤ distinctMade sites := by
    intro i
    rw [Session.changesLeft, shadowed_eq_zero hdistinct, Nat.zero_mul, Nat.zero_add]
    refine Session.slack_le_of_fits fun b hb => hs b ?_
    obtain ⟨p, -, hp⟩ := Option.bind_eq_some_iff.1 hb
    exact List.mem_of_getElem? hp
  have := Session.potential_le hchanges
  rwa [List.length_range] at this

/-- **A call without a budget comes to an end**, from every state that calls with
any budgets have left. The links lead to blocks; they may disagree, blocks may
share numbers, and some may be reached from nowhere. No block waits any more
after the visits that the call makes, and more visits would change nothing.
Where blocks have numbers of their own the call makes no more visits than there
are blocks, and as many for every link as there are distinct definitions. -/
theorem Graph.Resolved.calls_end {g : Graph} (hg : g.Resolved) (rules : Rules)
    (budgets : List (Option Int)) :
    ∃ s, analyzeAll (g.sites rules) budgets (.fresh (g.sites rules)) = .ok s ∧
      ∃ s' o, analyze (g.sites rules) none s = .ok (s', o) ∧
        (∀ n, o.visits ≤ n →
          visitUpTo (g.sites rules) n s (List.range (g.sites rules).length) = .ok (s', [])) ∧
        ((g.blocks.map (·.id)).Nodup → o.visits ≤
          g.blocks.length + distinctMade (g.sites rules) * total (fun b => b.succs.length) g.blocks) := by
  have hres := hg.sites rules
  obtain ⟨s, hoks, hlater⟩ := exists_analyzeAll hres budgets Session.fresh_covers
  obtain ⟨places, s', hrun, hlen, hok⟩ := exists_run hres (hlater.bounded hres Session.fresh_bounded)
  refine ⟨s, hoks, s', _, hok, fun n hn => hrun.visitUpTo_eq rfl hn, fun hdistinct => ?_⟩
  have hsites : ((g.sites rules).map (·.id)).Nodup := by
    simpa [Graph.sites, List.map_map, Function.comp_def] using hdistinct
  have hfits := hlater.fits hsites Session.fresh_covers fun b _ => Session.fresh_fits b
  have hbound := hlen.trans (potential_le_of_fits hsites hfits)
  rwa [Graph.sites, List.length_map, total_map, ← Graph.sites] at hbound

open Code in
/-- Two blocks of one number that bind the same name, and a block between them
with a link that only one of its ends knows. -/
def Graph.shared : Graph :=
  let x (line : Int) : Expr := .at ⟨line, 0, line, 1⟩ (.name "x")
  let assign (line : Int) (value : Expr) : Stmt := .at ⟨line, 0, line, 5⟩ (.assign [x line] value)
  { name := "shared"
    blocks :=
      [{ id := 0, statements := [some (assign 1 (.at ⟨1, 4, 1, 5⟩ (.constant .nothing)))], succs := [1] },
       { id := 1, statements := [some (assign 2 (x 3))], preds := [0], succs := [0, 1] },
       { id := 0, statements := [some (assign 4 (x 5))], preds := [1], succs := [1] }] }

theorem Graph.shared_resolved : Graph.shared.Resolved := by
  simp [Graph.Resolved, Graph.shared]

/-- The hypotheses of `calls_end` hold of a graph in which blocks share a number,
and of one with a loop in which they do not. -/
theorem Graph.shared_calls_end :
    Graph.shared.Resolved ∧
      (∃ s, analyzeAll (Graph.shared.sites .default) [some 2, none, some (-1)]
          (.fresh (Graph.shared.sites .default)) = .ok s ∧
        ∃ s' o, analyze (Graph.shared.sites .default) none s = .ok (s', o) ∧
          ∀ n, o.visits ≤ n →
            visitUpTo (Graph.shared.sites .default) n s (List.range 3) = .ok (s', [])) ∧
      Graph.rebinding.Resolved ∧ (Graph.rebinding.blocks.map (·.id)).Nodup ∧
      ∃ s' o, analyze (Graph.rebinding.sites .default) none (.fresh (Graph.rebinding.sites .default))
          = .ok (s', o) ∧
        o.visits ≤ 2 + distinctMade (Graph.rebinding.sites .default) * 2 := by
  obtain ⟨s, hoks, s', o, hok, hend, -⟩ :=
    Graph.Resolved.calls_end Graph.shared_resolved .default [some 2, none, some (-1)]
  obtain ⟨t, htoks, t', p, htok, -, hbound⟩ :=
    Graph.Resolved.calls_end Graph.rebinding_linked.resolved .default []
  obtain rfl : Session.fresh (Graph.rebinding.sites .default) = t := Except.ok.inj htoks
  exact ⟨Graph.shared_resolved, ⟨s, hoks, s', o, hok, hend⟩, Graph.rebinding_linked.resolved,
    Graph.rebinding_linked.distinct, t', p, htok, hbound Graph.rebinding_linked.distinct⟩

end Reaching
