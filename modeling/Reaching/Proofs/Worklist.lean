/-
Runs of the analysis: visits one after another until no block waits.

A run says which blocks were visited, by place and in order. `Run.invariant`
carries a property that one visit keeps through a run, and `Run.forall_of_quiet`
one that visits keep of the blocks that do not wait; `Run.analyze_eq` says that a
run to the end, if the bound on visits allows it, is what a call of the analysis
without a budget makes. Where neither places nor the blocks that wait matter, a
state is just later than another one (`Session.Later`).
-/
import Reaching.Proofs.Visit

namespace Reaching

open Relation

variable {sites : List Site}

/-! ## States that come later -/

namespace Session

/-- A state comes from another one by visits of blocks, in any order. -/
def Later (sites : List Site) : Session → Session → Prop :=
  ReflTransGen fun s t => ∃ b ∈ sites, t = s.visited b

theorem Later.trans {s t u : Session} (h : Later sites s t) (h' : Later sites t u) : Later sites s u :=
  ReflTransGen.trans h h'

/-- **What every visit keeps holds in every later state.** -/
theorem Later.keeps {P : Session → Prop}
    (hkeep : ∀ {s : Session} {b : Site}, b ∈ sites → P s → P (s.visited b)) {s t : Session}
    (h : Later sites s t) (hs : P s) : P t := by
  induction h with
  | refl => exact hs
  | tail _ hstep ih =>
    obtain ⟨b, hb, rfl⟩ := hstep
    exact hkeep hb ih

theorem Later.covers {s t : Session} (h : Later sites s t) (hs : s.Covers sites) : t.Covers sites :=
  h.keeps (fun _ hs => hs.visited _) hs

/-- Edges that were found stay. -/
theorem Later.edges {s t : Session} (h : Later sites s t) {x : Edge} (hx : x ∈ s.edges) : x ∈ t.edges :=
  h.keeps (P := fun t => x ∈ t.edges) (fun _ hs => mem_edges_visited.2 (.inl hs)) hx

/-- Names that were imported stay. -/
theorem Later.modules {s t : Session} (h : Later sites s t) {name : String} (hname : name ∈ s.modules) :
    name ∈ t.modules :=
  h.keeps (P := fun t => name ∈ t.modules) (fun _ hs => mem_modules_visited.2 (.inl hs)) hname

end Session

/-! ## Runs -/

/-- Visits from a state in which some blocks wait, to another such state. The
list in the middle has the places of the blocks visited. -/
inductive Run (sites : List Site) :
    Session → List Nat → List Nat → Session → List Nat → Prop
  | stop {s : Session} {waiting : List Nat} : Run sites s waiting [] s waiting
  | visit {s s₁ s₂ : Session} {p : Nat} {b : Site} {waiting waiting₁ waiting₂ places : List Nat} :
      sites[p]? = some b → visit sites b s waiting = .ok (s₁, waiting₁) →
      Run sites s₁ waiting₁ places s₂ waiting₂ →
      Run sites s (p :: waiting) (p :: places) s₂ waiting₂

/-- **A property that each visit keeps holds at the end of a run.** It may speak
of the places visited so far. -/
theorem Run.invariant {P : List Nat → Session → List Nat → Prop}
    (step : ∀ {seen : List Nat} {s s' : Session} {p : Nat} {b : Site} {waiting waiting' : List Nat},
      P seen s (p :: waiting) → sites[p]? = some b →
      Reaching.visit sites b s waiting = .ok (s', waiting') → P (seen ++ [p]) s' waiting')
    {s s' : Session} {waiting places waiting' : List Nat}
    (h : Run sites s waiting places s' waiting') :
    ∀ seen, P seen s waiting → P (seen ++ places) s' waiting' := by
  induction h with
  | stop =>
    intro seen hP
    simpa using hP
  | visit hp hv _ ih =>
    intro seen hP
    simpa using ih _ (step hP hp hv)

/-- A run leads to a later state. -/
theorem Run.later (hres : Resolved sites) {s s' : Session} {waiting places waiting' : List Nat}
    (hrun : Run sites s waiting places s' waiting') (hs : s.Covers sites) :
    Session.Later sites s s' := by
  induction hrun with
  | stop => exact .refl
  | visit hp hv _ ih =>
    have hb := List.mem_of_getElem? hp
    obtain ⟨rfl, -⟩ := visit_inversion hres hs hb hv
    exact .head ⟨_, hb, rfl⟩ (ih (hs.visited _))

/-- **What visits keep of the blocks that do not wait, all blocks have at the end**
of a run before which all of them waited. The states on the way may be assumed to
satisfy an invariant. -/
theorem Run.forall_of_quiet (hres : Resolved sites) {I : Session → Prop} {Q : Session → Site → Prop}
    (hcov : ∀ {s : Session}, I s → s.Covers sites)
    (hkeep : ∀ {s : Session} {b : Site}, b ∈ sites → I s → I (s.visited b))
    (step : ∀ {s s' : Session} {p : Nat} {b : Site} {waiting waiting' : List Nat}, I s →
      (∀ q a, sites[q]? = some a → q ∉ p :: waiting → Q s a) → sites[p]? = some b →
      Reaching.visit sites b s waiting = .ok (s', waiting') →
      ∀ q a, sites[q]? = some a → q ∉ waiting' → Q s' a)
    {s s' : Session} {places : List Nat} (hs : I s)
    (hrun : Run sites s (List.range sites.length) places s' []) {b : Site} (hb : b ∈ sites) : Q s' b := by
  have hall := (hrun.invariant (P := fun _ s w => I s ∧ ∀ q a, sites[q]? = some a → q ∉ w → Q s a)
    ?_ [] ⟨hs, fun q a hq hnot => ?_⟩).2
  · obtain ⟨p, hp⟩ := List.mem_iff_getElem?.1 hb
    exact hall p b hp List.not_mem_nil
  · rintro seen s s' p b waiting waiting' ⟨hs, hold⟩ hp hv
    refine ⟨?_, step hs hold hp hv⟩
    obtain ⟨rfl, -⟩ := visit_inversion hres (hcov hs) (List.mem_of_getElem? hp) hv
    exact hkeep (List.mem_of_getElem? hp) hs
  · exact absurd (List.mem_range.2 (List.getElem?_eq_some_iff.1 hq).1) hnot

/-- A run to the end is what repeated visiting makes of its start, if it may
visit often enough. -/
theorem Run.visitUpTo_eq {s s' : Session} {waiting places waiting' : List Nat}
    (h : Run sites s waiting places s' waiting') (hend : waiting' = []) :
    ∀ {n : Nat}, places.length ≤ n → visitUpTo sites n s waiting = .ok (s', []) := by
  induction h with
  | stop =>
    intro n _
    subst hend
    cases n <;> rfl
  | visit hp hv _ ih =>
    intro n hn
    obtain ⟨m, rfl⟩ : ∃ m, n = m + 1 := ⟨n - 1, by simp at hn; omega⟩
    rw [visitUpTo, hp]
    simp only [hv]
    exact ih hend (by simpa using hn)

/-- A run counts its visits. -/
theorem Run.visits_eq (hres : Resolved sites) {s s' : Session} {waiting places waiting' : List Nat}
    (hrun : Run sites s waiting places s' waiting') (hs : s.Covers sites) :
    s'.visits = s.visits + places.length := by
  induction hrun with
  | stop => rfl
  | visit hp hv _ ih =>
    obtain ⟨rfl, -⟩ := visit_inversion hres hs (List.mem_of_getElem? hp) hv
    rw [ih (hs.visited _), Session.visits_visited, List.length_cons]
    omega

/-- **A run to the end, short enough, is a call of the analysis.** -/
theorem Run.analyze_eq (hres : Resolved sites) {s s' : Session} {places : List Nat} (hs : s.Covers sites)
    (hrun : Run sites s (List.range sites.length) places s' [])
    (hlen : places.length ≤ visitBound sites s) :
    analyze sites none s = .ok (s', ⟨places.length, false⟩) := by
  have hcount := hrun.visits_eq hres hs
  simp only [analyze, visitLimit, hrun.visitUpTo_eq rfl hlen, bind, Except.bind]
  simp [hcount]

end Reaching
