/-
Analyses of code that was moved.

Every step of the analysis of moved code is the moved step: which definitions hold, which
edges are found and which blocks wait depends on names, on numbers of blocks and on whether
spans are equal, and a move keeps all of these (`visit_moved`). So the whole analysis is the
moved one, with the same number of visits (`analyze_moved`). A move keeps the order of spans
too, so sorted outputs are moved entry by entry (`Edge.sort_moved`,
`Definitions.sorted_moved`), and slices at moved lines are the moved slices
(`Slice.spans_moved`, `Slice.lines_moved`).
-/
import Reaching.Proofs.Calls
import Reaching.Proofs.MovedEffects

namespace Reaching

open Code

/-! ## Lists and maps that keep things apart -/

section Lists

variable {α β : Type} [DecidableEq α] [DecidableEq β] {f : α → β}

theorem contains_map_of_injective (hf : Function.Injective f) (list : List α) (a : α) :
    (list.map f).contains (f a) = list.contains a := by
  rw [Bool.eq_iff_iff, List.contains_iff_mem, List.contains_iff_mem]
  exact List.mem_map_of_injective hf

theorem beq_of_injective (hf : Function.Injective f) (a b : α) : (f a == f b) = (a == b) := by
  rw [Bool.eq_iff_iff, beq_iff_eq, beq_iff_eq]
  exact hf.eq_iff

theorem eraseDups_map_of_injective (hf : Function.Injective f) (list : List α) :
    (list.map f).eraseDups = list.eraseDups.map f := by
  match list with
  | [] => rfl
  | a :: rest =>
    have hkept : (rest.map f).filter (fun b => !b == f a) = (rest.filter fun b => !b == a).map f := by
      simp only [List.filter_map, Function.comp_def, beq_of_injective hf]
    have hshorter := List.length_filter_le (fun b => !b == a) rest
    rw [List.map_cons, List.eraseDups_cons, hkept, eraseDups_map_of_injective hf, List.eraseDups_cons,
      List.map_cons]
termination_by list.length
decreasing_by exact Nat.lt_succ_of_le hshorter

theorem eraseReps_map_of_injective (hf : Function.Injective f) (list : List α) :
    (list.map f).eraseReps = list.eraseReps.map f := by
  have hloop : ∀ (rest : List α) (last : α) (found : List α),
      List.eraseRepsBy.loop (fun a b => a == b) (f last) (rest.map f) (found.map f) =
        (List.eraseRepsBy.loop (fun a b => a == b) last rest found).map f := by
    intro rest
    induction rest with
    | nil =>
      intro last found
      simp [List.eraseRepsBy.loop]
    | cons a rest ih =>
      intro last found
      rw [List.map_cons, List.eraseRepsBy.loop, List.eraseRepsBy.loop, beq_of_injective hf]
      cases last == a with
      | true => exact ih last found
      | false => exact ih a (last :: found)
  cases list with
  | nil => rfl
  | cons a rest => exact hloop rest a []

end Lists

/-! ## Replaying statements -/

/-- An edge between spans that are `k` lines further down. -/
def Edge.moved (k : Int) (e : Edge) : Edge := ⟨e.source.moved k, e.target.moved k⟩

section Replay

variable {k : Int}

theorem Edge.moved_injective : Function.Injective (Edge.moved k) := by
  rintro ⟨s, t⟩ ⟨s', t'⟩ h
  simpa [Edge.moved] using h

theorem Effect.apply_moved (e : Effect) (ds : Definitions) :
    (e.moved k).apply (ds.map (Definition.moved k)) = (e.apply ds).map (Definition.moved k) := by
  have hkept : (ds.map (Definition.moved k)).filter
        (fun d => !(e.moved k).definitions.any fun f => f.name = d.name) =
      (ds.filter fun d => !e.definitions.any fun f => f.name = d.name).map (Definition.moved k) := by
    simp only [Effect.moved, List.filter_map, List.any_map, Function.comp_def]
    rfl
  rw [apply, hkept, apply]
  exact Definitions.union_moved _ _

theorem Effect.edges_moved (e : Effect) (ds : Definitions) :
    (e.moved k).edges (ds.map (Definition.moved k)) = (e.edges ds).map (Edge.moved k) := by
  simp only [edges, Effect.moved, List.filter_map, List.map_map, Function.comp_def, Definition.name_moved]
  refine List.map_congr_left fun d _ => ?_
  rw [Edge.moved, Definition.moved, Stmt.span_respan]

/-- **The definitions after moved statements** are the moved ones. -/
theorem outgoing_moved (effects : List Effect) (ds : Definitions) :
    outgoing (effects.map (Effect.moved k)) (ds.map (Definition.moved k)) =
      (outgoing effects ds).map (Definition.moved k) := by
  induction effects generalizing ds with
  | nil => rfl
  | cons e rest ih =>
    simp only [outgoing, List.map_cons, List.foldl_cons, Effect.apply_moved] at ih ⊢
    exact ih _

theorem edgesAlong_moved (effects : List Effect) (ds : Definitions) :
    edgesAlong (effects.map (Effect.moved k)) (ds.map (Definition.moved k)) =
      (edgesAlong effects ds).map (Edge.moved k) := by
  induction effects generalizing ds with
  | nil => rfl
  | cons e rest ih =>
    rw [List.map_cons, edgesAlong, edgesAlong, Effect.edges_moved, Effect.apply_moved, ih, List.map_append]

theorem Edge.insert_moved (edges : List Edge) (e : Edge) :
    Edge.insert (edges.map (Edge.moved k)) (e.moved k) = (Edge.insert edges e).map (Edge.moved k) := by
  simp only [insert, contains_map_of_injective moved_injective]
  split <;> simp

theorem Edge.insertAll_moved (found edges : List Edge) :
    (found.map (Edge.moved k)).foldl Edge.insert (edges.map (Edge.moved k)) =
      (found.foldl Edge.insert edges).map (Edge.moved k) := by
  induction found generalizing edges with
  | nil => rfl
  | cons e rest ih => rw [List.map_cons, List.foldl_cons, insert_moved, ih, List.foldl_cons]

end Replay

/-! ## States -/

/-- A block whose code is `k` lines further down, as the analysis sees it. -/
def Site.moved (k : Int) (site : Site) : Site := { site with effects := site.effects.map (Effect.moved k) }

/-- What an analysis finds in code that is `k` lines further down. -/
def Session.moved (k : Int) (s : Session) : Session :=
  { s with
    records := s.records.map (Prod.map id (List.map (Definition.moved k)))
    edges := s.edges.map (Edge.moved k)
    discarded := s.discarded.map (· + k) }

section States

variable {k : Int}

theorem Session.record?_moved (s : Session) (id : BlockId) :
    (s.moved k).record? id = (s.record? id).map (List.map (Definition.moved k)) := by
  simp only [record?, Session.moved, List.find?_map, Option.map_map]
  rfl

/-- **The definitions at the end of a block** are the moved ones. -/
theorem Session.record_moved (s : Session) (id : BlockId) :
    (s.moved k).record id = (s.record id).map (Definition.moved k) := by
  rw [record, record?_moved, record]
  cases s.record? id <;> rfl

theorem Session.setRecord_moved (s : Session) (id : BlockId) (ds : Definitions) :
    (s.moved k).setRecord id (ds.map (Definition.moved k)) = (s.setRecord id ds).moved k := by
  simp only [setRecord, Session.moved, List.map_map, Session.mk.injEq, and_true]
  refine List.map_congr_left fun r _ => ?_
  simp only [Function.comp_apply, Prod.map_fst, id_eq]
  split <;> rfl

theorem Session.note_moved (s : Session) (effects : List Effect) (ds : Definitions) :
    (s.moved k).note (effects.map (Effect.moved k)) (ds.map (Definition.moved k)) =
      (s.note effects ds).moved k := by
  simp only [note, Session.moved, edgesAlong_moved, Edge.insertAll_moved, List.flatMap_map, List.map_append,
    List.map_flatMap]
  rfl

theorem Session.incoming_moved (s : Session) (site : Site) :
    (s.moved k).incoming (site.moved k) = (s.incoming site).map (List.map (Definition.moved k)) := by
  have hpreds : (site.moved k).preds = site.preds := rfl
  have hid : (site.moved k).id = site.id := rfl
  rw [incoming, incoming, hpreds, hid, record_moved]
  generalize s.record site.id = ds
  induction site.preds generalizing ds with
  | nil => rfl
  | cons id rest ih =>
    rw [List.foldlM_cons, List.foldlM_cons, record?_moved]
    cases s.record? id with
    | none => rfl
    | some es =>
      have hrest := ih (ds.union es)
      rw [← Definitions.union_moved] at hrest
      exact hrest

theorem Session.fresh_moved (sites : List Site) :
    Session.fresh (sites.map (Site.moved k)) = (Session.fresh sites).moved k := by
  simp only [fresh, Session.moved, List.map_map]
  rfl

end States

/-! ## Visits -/

section Visits

variable {k : Int}

theorem position?_moved (sites : List Site) (id : BlockId) :
    position? (sites.map (Site.moved k)) id = position? sites id := by
  simp only [position?, List.zipIdx_map, List.filter_map, List.getLast?_map, Option.map_map]
  rfl

theorem enqueue_moved (sites : List Site) (waiting : List Nat) (ids : List BlockId) :
    enqueue (sites.map (Site.moved k)) waiting ids = enqueue sites waiting ids := by
  simp only [enqueue, position?_moved]

/-- What is found in code that is `k` lines further down, and which blocks wait. -/
def movedResult {α : Type} (k : Int) (r : Session × α) : Session × α := (r.1.moved k, r.2)

/-- **One visit** of a moved block is the moved visit. -/
theorem visit_moved (sites : List Site) (site : Site) (s : Session) (waiting : List Nat) :
    visit (sites.map (Site.moved k)) (site.moved k) (s.moved k) waiting =
      (visit sites site s waiting).map (movedResult k) := by
  have heffects : (site.moved k).effects = site.effects.map (Effect.moved k) := rfl
  have hsuccs : (site.moved k).succs = site.succs := rfl
  have hid : (site.moved k).id = site.id := rfl
  unfold visit
  rw [Session.incoming_moved, heffects, hsuccs, hid]
  cases s.incoming site with
  | error e => rfl
  | ok start =>
    have hsame : Definitions.sameAs ((outgoing site.effects start).map (Definition.moved k))
        ((s.moved k).record site.id) = (outgoing site.effects start).sameAs (s.record site.id) := by
      rw [Session.record_moved, Definitions.sameAs_moved]
    simp only [Except.map, bind, Except.bind, outgoing_moved, Session.note_moved, hsame, enqueue_moved,
      Session.setRecord_moved]
    split
    · rfl
    · cases enqueue sites waiting site.succs <;> rfl

/-- **Visits** of moved blocks are the moved visits, as many as they may be. -/
theorem visitUpTo_moved (sites : List Site) (n : Nat) :
    ∀ (s : Session) (waiting : List Nat),
      visitUpTo (sites.map (Site.moved k)) n (s.moved k) waiting =
        (visitUpTo sites n s waiting).map (movedResult k) := by
  induction n with
  | zero => intro _ _; rfl
  | succ n ih =>
    intro s waiting
    cases waiting with
    | nil => rfl
    | cons p waiting =>
      simp only [visitUpTo, List.getElem?_map]
      cases sites[p]? with
      | none => exact ih s waiting
      | some site =>
        simp only [Option.map_some, visit_moved]
        cases visit sites site s waiting with
        | error e => rfl
        | ok r => exact ih r.1 r.2

theorem visitBound_moved (sites : List Site) (s : Session) :
    visitBound (sites.map (Site.moved k)) (s.moved k) = visitBound sites s := by
  simp only [visitBound, Session.moved, Site.moved, Effect.moved, total_map, Prod.map_snd, List.length_map]

/-- **The analysis of moved code** is the moved analysis, after the same visits. -/
theorem analyze_moved (sites : List Site) (budget : Option Int) (s : Session) :
    analyze (sites.map (Site.moved k)) budget (s.moved k) =
      (analyze sites budget s).map (movedResult k) := by
  have hlimit : visitLimit (sites.map (Site.moved k)) budget (s.moved k) = visitLimit sites budget s := by
    cases budget with
    | none => exact visitBound_moved sites s
    | some n => rfl
  unfold analyze
  rw [hlimit, List.length_map]
  simp only [visitUpTo_moved]
  cases visitUpTo sites (visitLimit sites budget s) s (List.range sites.length) <;> rfl

end Visits

/-! ## Orders -/

section Orders

variable {k : Int}

/-- **A move keeps the order of spans.** -/
theorem Span.moved_le_moved {s t : Span} : s.moved k ≤ t.moved k ↔ s ≤ t := by
  have hlt : ∀ s t : Span, s.moved k < t.moved k ↔ s < t := by
    intro s t
    show (s.moved k).numbers < (t.moved k).numbers ↔ s.numbers < t.numbers
    simp [numbers, List.cons_lt_cons_iff]
  exact not_congr (hlt t s)

theorem Edge.before_moved (e f : Edge) : (e.moved k).before (f.moved k) = e.before f := by
  simp only [before, Edge.moved, Span.moved_inj, Span.moved_le_moved]

theorem Reference.before_moved (r s : Reference) : (r.moved k).before (s.moved k) = r.before s := by
  simp only [before, Reference.moved, Span.moved_inj, Span.moved_le_moved]

/-- **Edges in order** are moved one by one. -/
theorem Edge.sort_moved (edges : List Edge) :
    Edge.sort (edges.map (Edge.moved k)) = (Edge.sort edges).map (Edge.moved k) :=
  (List.map_mergeSort fun e _ f _ => (e.before_moved f).symm).symm

/-- **Definitions in order** are moved one by one. -/
theorem Definitions.sorted_moved (ds : Definitions) :
    sorted (ds.map (Definition.moved k)) = (sorted ds).map (Definition.moved k) :=
  (List.map_mergeSort fun d _ e _ => (d.identity.before_moved e.identity).symm).symm

end Orders

/-! ## Slices -/

section Slices

variable {k : Int}

theorem Slice.next_moved (direction : Direction) (edges : List Edge) (s : Span) :
    next direction (edges.map (Edge.moved k)) (s.moved k) = (next direction edges s).map (Span.moved k) := by
  cases direction <;> simp [next, List.filter_map, Function.comp_def, Edge.moved]

theorem Slice.seeds_moved (edges : List Edge) (lines : List Int) :
    seeds (edges.map (Edge.moved k)) (lines.map (· + k)) = (seeds edges lines).map (Span.moved k) := by
  have hends : endpoints (edges.map (Edge.moved k)) = (endpoints edges).map (Span.moved k) := by
    simp only [endpoints, ← eraseDups_map_of_injective Span.moved_injective, List.flatMap_map,
      List.map_flatMap]
    rfl
  have hcontains : ∀ (s : Span) (line : Int), (s.moved k).containsLine (line + k) = s.containsLine line := by
    intro s line
    simp [Span.containsLine]
  simp only [seeds, hends, List.filter_map, Function.comp_def, List.any_map, hcontains]

theorem Slice.explore_moved {step step' : Span → List Span}
    (hstep : ∀ s, step' (s.moved k) = (step s).map (Span.moved k)) (fuel : Nat) :
    ∀ seen waiting, explore step' fuel (seen.map (Span.moved k)) (waiting.map (Span.moved k)) =
      (explore step fuel seen waiting).map (Span.moved k) := by
  induction fuel with
  | zero => intro _ _; rfl
  | succ fuel ih =>
    intro seen waiting
    cases waiting with
    | nil => rfl
    | cons s waiting =>
      have hnew : (step' (s.moved k)).filter (fun t => !((s :: seen).map (Span.moved k)).contains t) =
          ((step s).filter fun t => !(s :: seen).contains t).map (Span.moved k) := by
        rw [hstep, List.filter_map]
        simp only [Function.comp_def, contains_map_of_injective Span.moved_injective]
      rw [List.map_cons, explore, contains_map_of_injective Span.moved_injective, explore]
      split
      · exact ih seen waiting
      · dsimp only
        rw [← List.map_cons, hnew, ← List.map_append]
        exact ih _ _

/-- **The spans of a slice** at moved lines are the moved spans. -/
theorem Slice.spans_moved (direction : Direction) (edges : List Edge) (lines : List Int) :
    spans direction (edges.map (Edge.moved k)) (lines.map (· + k)) =
      (spans direction edges lines).map (Span.moved k) := by
  simp only [spans, seeds_moved, List.length_map]
  exact explore_moved (next_moved direction edges) _ [] _

/-- **The lines of a slice** at moved lines are the moved lines. -/
theorem Slice.lines_moved (direction : Direction) (edges : List Edge) (lines : List Int) :
    Slice.lines direction (edges.map (Edge.moved k)) (lines.map (· + k)) =
      (Slice.lines direction edges lines).map (· + k) := by
  have hinjective : Function.Injective fun line : Int => line + k := by
    intro a b h
    simpa using h
  have hcovered : ((spans direction edges lines).map (Span.moved k)).flatMap Span.lines =
      ((spans direction edges lines).flatMap Span.lines).map (· + k) := by
    rw [List.flatMap_map, List.map_flatMap]
    refine List.flatMap_congr fun s _ => ?_
    have hcount : s.lastLine + k + 1 - (s.firstLine + k) = s.lastLine + 1 - s.firstLine := by lia
    simp only [Span.lines, Span.firstLine_moved, Span.lastLine_moved, hcount, List.map_map]
    exact List.map_congr_left fun i _ => Int.add_right_comm ..
  rw [Slice.lines, coveredLines, spans_moved, hcovered, Slice.lines, coveredLines,
    ← eraseReps_map_of_injective hinjective]
  congr 1
  exact (List.map_mergeSort fun a _ b _ => by simp).symm

end Slices

/-! ## Programs -/

section Programs

variable {k : Int}

/-- No statement is missing in the graph of code. -/
theorem Graph.of_complete {m : Module} {function : Option String} {g : Graph}
    (hg : Graph.of m function = .ok g) : ∀ b ∈ g.blocks, none ∉ b.statements := by
  have hbody : ∀ name line bindings body, ∀ b ∈ (Graph.ofBody name line bindings body).blocks,
      none ∉ b.statements := by
    intro name line bindings body b hb
    obtain ⟨i, o, -, rfl⟩ := Fragment.mem_blocks.1 hb
    simp [Fragment.blockOf]
  unfold Graph.of at hg
  split at hg
  · obtain rfl := Except.ok.inj hg
    exact hbody _ _ _ _
  · split at hg
    · rename_i s _
      obtain rfl := Except.ok.inj hg
      unfold Graph.ofFunction?
      split
      · exact hbody _ _ _ _
      · intro b hb
        cases hb
    · cases hg

theorem Graph.sites_moved {g : Graph} (hg : ∀ b ∈ g.blocks, none ∉ b.statements) (rules : Rules) :
    (g.moved k).sites rules = (g.sites rules).map (Site.moved k) := by
  simp only [Graph.sites, Graph.moved, List.map_map]
  refine List.map_congr_left fun b hb => ?_
  have heffects : (b.statements.map (Option.map (Stmt.respan (.moved k)))).map (Effect.of rules) =
      (b.statements.map (Effect.of rules)).map (Effect.moved k) := by
    rw [List.map_map, List.map_map]
    refine List.map_congr_left fun s hs => ?_
    cases s with
    | none => exact absurd hs (hg b hb)
    | some s => exact s.effect_moved rules
  simp only [Function.comp_apply, Block.moved, heffects, Site.moved]

/-- **Analysis is invariant under moving code down.** Let `k` be added to every line of a
module that is not empty. At module level and for every function, its graph is the same one
with the lines of its blocks and the spans of its statements moved by `k`, and each statement
is shown by the same line of text. Its analysis makes the same visits and finds the moved
edges, for every block the moved definitions with their kinds, and the same modules; edges and
definitions come out in the same order. Slices from lines moved by `k` are the moved slices. -/
theorem Graph.analysis_of_moved {m : Module} (hm : m.body ≠ []) (function : Option String) (rules : Rules)
    (k : Nat) :
    Graph.of (m.moved k) function = (Graph.of m function).map (Graph.moved k) ∧
    (∀ t : Stmt, (t.respan (.moved k)).summary = t.summary) ∧
    ∀ g, Graph.of m function = .ok g → ∃ s o,
      analyze (g.sites rules) none (.fresh (g.sites rules)) = .ok (s, o) ∧
      analyze ((g.moved k).sites rules) none (.fresh ((g.moved k).sites rules)) = .ok (s.moved k, o) ∧
      Edge.sort (s.moved k).edges = (Edge.sort s.edges).map (Edge.moved k) ∧
      (∀ id, ((s.moved k).record id).sorted = ((s.record id).sorted).map (Definition.moved k)) ∧
      ∀ (direction : Direction) (lines : List Int),
        Slice.spans direction (s.moved k).edges (lines.map (· + (k : Int))) =
          (Slice.spans direction s.edges lines).map (Span.moved k) ∧
        Slice.lines direction (s.moved k).edges (lines.map (· + (k : Int))) =
          (Slice.lines direction s.edges lines).map (· + (k : Int)) := by
  refine ⟨Graph.of_moved hm function, fun t => t.summary_respan, fun g hg => ?_⟩
  obtain ⟨places, s, -, hok, -⟩ := ((Graph.of_linked hg).sites rules).exists_finished
  have hmoved : analyze ((g.moved k).sites rules) none (.fresh ((g.moved k).sites rules)) =
      .ok (s.moved k, ⟨places.length, false⟩) := by
    rw [Graph.sites_moved (Graph.of_complete hg), Session.fresh_moved, analyze_moved, hok]
    rfl
  refine ⟨s, _, hok, hmoved, Edge.sort_moved s.edges, fun id => ?_, fun direction lines => ?_⟩
  · rw [Session.record_moved, Definitions.sorted_moved]
  · exact ⟨Slice.spans_moved direction s.edges lines, Slice.lines_moved direction s.edges lines⟩

end Programs

/-- A loop with a declaration in a literal, whose lines count from that of the literal. -/
def Code.Module.declaringLoop : Module :=
  let name (line column : Int) (id : String) : Expr := .at ⟨line, column, line, column + id.length⟩ (.name id)
  let text := "\"defs: [\x7b\"name\": \"z\", \"pos\": [[0, 4], [1, 0]]\x7d]\""
  { body :=
      [.at ⟨1, 0, 3, 9⟩ (.forLoop false (name 1 4 "x") (name 1 9 "xs")
        [.at ⟨2, 4, 2, 57⟩ (.expr (.at ⟨2, 4, 2, 57⟩ (.constant (.text text false)))),
          .at ⟨3, 4, 3, 9⟩ (.assign [name 3 4 "x"] (name 3 8 "z"))] [])] }

/-- The loop is analysed alike on lines 1 to 3 and on lines 11 to 13. -/
theorem Graph.declaringLoop_analysis_of_moved :
    Code.Module.declaringLoop.body ≠ [] ∧
      Graph.of (Code.Module.declaringLoop.moved 10) none =
        .ok ((Graph.ofModule .declaringLoop).moved 10) ∧
      ∃ s o, analyze ((Graph.ofModule .declaringLoop).sites .default) none
          (.fresh ((Graph.ofModule .declaringLoop).sites .default)) = .ok (s, o) ∧
        analyze (((Graph.ofModule .declaringLoop).moved 10).sites .default) none
          (.fresh (((Graph.ofModule .declaringLoop).moved 10).sites .default)) = .ok (s.moved 10, o) := by
  have hbody : Code.Module.declaringLoop.body ≠ [] := List.cons_ne_nil _ _
  obtain ⟨hgraph, -, hanalysis⟩ := Graph.analysis_of_moved hbody none .default 10
  obtain ⟨s, o, hok, hmoved, -⟩ := hanalysis _ rfl
  exact ⟨hbody, hgraph, s, o, hok, hmoved⟩

end Reaching
