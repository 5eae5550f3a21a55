/-
What a definition on record was made by never changes.

Definitions are told apart by name and span, and a set keeps the first of several that
are the same. Sets are put together anew on every visit, so it has to be shown which of
them comes first. A block that defines a name decides about it alone: it leaves the
definitions of the last statement to define it, whatever it starts from
(`mem_outgoing_iff`). Of any other name a visit starts from the block's own record, and
joins the records in front of it afterwards, so that what is there stays there. A record
holds nothing but what comes about in one of these two ways (`Session.Attributed`), and so
a visit finds again the very definitions it holds (`Session.Attributed.mem_result`).
-/
import Reaching.Proofs.Recovery
import Reaching.Proofs.StraightLine

namespace Reaching

variable {sites : List Site}

/-! ## Sets -/

namespace Definitions

theorem mem_insert_of_mem {ds : Definitions} {d e : Definition} (h : d ∈ ds) : d ∈ ds.insert e := by
  unfold insert
  split
  · exact h
  · exact List.mem_append_left _ h

/-- **What a set holds stays when another one joins it.** -/
theorem mem_union_of_mem {ds es : Definitions} {d : Definition} (h : d ∈ ds) : d ∈ ds.union es := by
  unfold union
  induction es generalizing ds with
  | nil => exact h
  | cons e es ih => exact ih (mem_insert_of_mem h)

end Definitions

/-! ## Records -/

/-- Every statement makes each of its definitions once. -/
def Distinct (sites : List Site) : Prop :=
  ∀ b ∈ sites, ∀ e ∈ b.effects, e.definitions.identities.Nodup

theorem Graph.sites_distinct (g : Graph) (rules : Rules) : Distinct (g.sites rules) := by
  intro s hs e he
  obtain ⟨b, -, rfl⟩ := Graph.mem_sites.1 hs
  obtain ⟨stmt, -, rfl⟩ := List.mem_map.1 he
  cases stmt with
  | none => exact .nil
  | some stmt => exact nodup_identities_definitions rules stmt

namespace Session

/-- What a record holds of a name that its block defines is what the last statement to
define the name makes. -/
def Attributed (s : Session) (b : Site) : Prop :=
  ∀ d ∈ s.record b.id, Clear b.effects d.name ∨ ∃ (i : Nat) (e : Effect),
    b.effects[i]? = some e ∧ d ∈ e.definitions ∧ Clear (b.effects.drop (i + 1)) d.name

theorem fresh_attributed (b : Site) : (fresh sites).Attributed b := fun d hd => by
  rw [fresh_record] at hd; cases hd

/-- A visit starts from all that the block's own record holds. -/
theorem mem_start_of_mem_record {s : Session} {b : Site} {d : Definition} (h : d ∈ s.record b.id) :
    d ∈ s.start b := by
  unfold start merged
  generalize s.record b.id = ds at h
  induction b.preds generalizing ds with
  | nil => exact h
  | cons i ids ih => exact ih _ (Definitions.mem_union_of_mem h)

/-- **A visit finds again what the record holds**, made by what made it. -/
theorem Attributed.mem_result (hd : Distinct sites) {s : Session} {b : Site} (hb : b ∈ sites)
    (hs : s.Attributed b) {d : Definition} (h : d ∈ s.record b.id) : d ∈ s.result b := by
  rw [result, mem_outgoing_iff (hd b hb)]
  exact (hs d h).imp_left fun hclear => ⟨mem_start_of_mem_record h, hclear⟩

/-- After a visit the visited block's record is attributed. -/
theorem Attributed.visited (hd : Distinct sites) {s : Session} (hcov : s.Covers sites) {b : Site}
    (hb : b ∈ sites) (hs : s.Attributed b) : (s.visited b).Attributed b := by
  intro d h
  rcases record_visited_self hcov hb with ⟨-, hrec⟩ | ⟨-, hrec⟩ <;> rw [hrec] at h
  · exact hs d h
  · exact ((mem_outgoing_iff (hd b hb)).1 h).imp_left And.right

/-- A visit leaves in the visited block's record what is there. -/
theorem Attributed.mem_visited (hd : Distinct sites) {s : Session} (hcov : s.Covers sites) {b : Site}
    (hb : b ∈ sites) (hs : s.Attributed b) {d : Definition} (h : d ∈ s.record b.id) :
    d ∈ (s.visited b).record b.id := by
  rcases record_visited_self hcov hb with ⟨-, hrec⟩ | ⟨-, hrec⟩ <;> rw [hrec]
  · exact h
  · exact hs.mem_result hd hb h

/-- The records hold each definition once, and what made it does not change any more. -/
structure Lasting (sites : List Site) (s : Session) : Prop where
  bounded : s.Bounded sites
  attributed : ∀ b ∈ sites, s.Attributed b

theorem fresh_lasting : Lasting sites (fresh sites) := ⟨fresh_bounded, fun b _ => fresh_attributed b⟩

/-- **A visit keeps the records lasting, and all that they hold**, where blocks have numbers of
their own. -/
theorem Lasting.visited (hdistinct : (sites.map (·.id)).Nodup) (hres : Resolved sites) (hd : Distinct sites)
    {s : Session} (hs : s.Lasting sites) {b : Site} (hb : b ∈ sites) :
    (s.visited b).Lasting sites ∧
      ∀ a ∈ sites, ∀ d ∈ s.record a.id, d ∈ (s.visited b).record a.id := by
  have hcov := hs.bounded.covers
  have other : ∀ {a : Site}, a ∈ sites → a ≠ b → (s.visited b).record a.id = s.record a.id :=
    fun ha hne => record_visited_of_ne fun hid => hne (List.inj_on_of_nodup_map hdistinct ha hb hid)
  refine ⟨⟨hs.bounded.visited hres hb, fun a ha => ?_⟩, fun a ha d h => ?_⟩
  · by_cases hab : a = b
    · subst hab
      exact (hs.attributed a ha).visited hd hcov ha
    · intro d h
      rw [other ha hab] at h
      exact hs.attributed a ha d h
  · by_cases hab : a = b
    · subst hab
      exact (hs.attributed a ha).mem_visited hd hcov ha h
    · rwa [other ha hab]

/-- **What is on record stays on record**, whatever is visited. -/
theorem Later.lasting (hdistinct : (sites.map (·.id)).Nodup) (hres : Resolved sites) (hd : Distinct sites)
    {s t : Session} (h : Later sites s t) (hs : s.Lasting sites) :
    t.Lasting sites ∧ ∀ a ∈ sites, ∀ d ∈ s.record a.id, d ∈ t.record a.id := by
  refine h.keeps (P := fun t => t.Lasting sites ∧ ∀ a ∈ sites, ∀ d ∈ s.record a.id, d ∈ t.record a.id)
    ?_ ⟨hs, fun _ _ _ h => h⟩
  rintro t b hb ⟨ht, hkept⟩
  obtain ⟨hlasting, hstays⟩ := ht.visited hdistinct hres hd hb
  exact ⟨hlasting, fun a ha d h => hstays a ha d (hkept a ha d h)⟩

end Session

/-! ## Calls -/

/-- What one state has on record another one has too, and of the same kind and by the same
statement. -/
def Graph.Keeps (g : Graph) (s t : Session) : Prop :=
  ∀ b ∈ g.blocks, ∀ d ∈ s.record b.id, d.identity ∈ (t.record b.id).identities ∧
    ∀ f ∈ t.record b.id, f.identity = d.identity → f.kind = d.kind ∧ f.owner = d.owner

theorem Session.Later.keeps_graph {g : Graph} (hg : g.Resolved) (hdistinct : (g.blocks.map (·.id)).Nodup)
    {rules : Rules} {s t : Session} (h : Later (g.sites rules) s t) (hs : s.Lasting (g.sites rules)) :
    g.Keeps s t := by
  have hsites : ((g.sites rules).map (·.id)).Nodup := by
    rwa [Graph.map_id_sites]
  obtain ⟨ht, hstays⟩ := h.lasting hsites (hg.sites rules) (g.sites_distinct rules) hs
  intro b hb d hd
  have hsite := Graph.site_mem_sites hb rules
  have hmem := hstays _ hsite d hd
  refine ⟨List.mem_map_of_mem hmem, fun f hf hid => ?_⟩
  obtain rfl := List.inj_on_of_nodup_map (ht.bounded.nodup _ hsite) hf hmem hid
  exact ⟨rfl, rfl⟩

/-- **What a definition on record was made by never changes.** Calls with any budgets are made one
after another, and then some visits of one more call. At any later moment, in the same call, or when
it was stopped and any calls were made after it and some visits of one more, every record still
holds what it holds then, each of the same kind and owned by the same statement. Links have to lead
to blocks and blocks to have numbers of their own; that several statements make the same definition
does not matter. -/
theorem Graph.Resolved.attribution_kept {g : Graph} (hg : g.Resolved)
    (hdistinct : (g.blocks.map (·.id)).Nodup) (rules : Rules) (earlier : List (Option Int)) (n : Nat) :
    ∃ s now waiting, analyzeAll (g.sites rules) earlier (.fresh (g.sites rules)) = .ok s ∧
      visitUpTo (g.sites rules) n s (List.range (g.sites rules).length) = .ok (now, waiting) ∧
      ∀ m, n ≤ m → ∃ next waiting',
        visitUpTo (g.sites rules) m s (List.range (g.sites rules).length) = .ok (next, waiting') ∧
        g.Keeps now next ∧
        ∀ (more : List (Option Int)) (l : Nat), ∃ t last waiting'',
          analyzeAll (g.sites rules) more next = .ok t ∧
          visitUpTo (g.sites rules) l t (List.range (g.sites rules).length) = .ok (last, waiting'') ∧
          g.Keeps now last := by
  have hres := hg.sites rules
  have hsites : ((g.sites rules).map (·.id)).Nodup := by
    rwa [Graph.map_id_sites]
  obtain ⟨s, hoks, hlaters⟩ := exists_analyzeAll hres earlier Session.fresh_covers
  have hs := hlaters.covers Session.fresh_covers
  obtain ⟨now, waiting, hok, hnow, hnext⟩ := exists_moment hres hs n
  have hlasting := ((hlaters.trans hnow).lasting hsites hres (g.sites_distinct rules) Session.fresh_lasting).1
  refine ⟨s, now, waiting, hoks, hok, fun m hm => ?_⟩
  obtain ⟨next, waiting', hok', hlater'⟩ := hnext m hm
  refine ⟨next, waiting', hok', hlater'.keeps_graph hg hdistinct hlasting, fun more l => ?_⟩
  have hcov := hlater'.covers (hnow.covers hs)
  obtain ⟨t, hokt, hlatert⟩ := exists_analyzeAll hres more hcov
  obtain ⟨last, waiting'', hok'', hlast, -⟩ := exists_moment hres (hlatert.covers hcov) l
  exact ⟨t, last, waiting'', hokt, hok'',
    ((hlater'.trans hlatert).trans hlast).keeps_graph hg hdistinct hlasting⟩

open Code in
/-- A name that is bound in the first block and changed in the last one, both at the same span. The
block between them has no statements; the change comes in front of the binding among the blocks in
front of it. -/
def Graph.contested : Graph :=
  let x : Expr := .at ⟨1, 0, 1, 1⟩ (.name "x")
  let binding : Stmt := .at ⟨1, 0, 1, 8⟩ (.assign [x] (.at ⟨1, 4, 1, 8⟩ (.constant .nothing)))
  let change : Stmt := .at ⟨2, 0, 2, 12⟩ (.expr (.at ⟨2, 0, 2, 12⟩
    (.call (.at ⟨2, 0, 2, 8⟩ (.attribute x "append")) [.at ⟨2, 9, 2, 11⟩ (.constant .nothing)] [])))
  { name := "contested"
    blocks :=
      [{ id := 0, statements := [some binding], succs := [1] },
       { id := 1, statements := [], preds := [2, 0], succs := [2] },
       { id := 2, statements := [some change], preds := [1], succs := [1] }] }

/-- The hypotheses of `attribution_kept` hold of a graph in which two statements make the same
definition. The binding reaches the block between them first, and is what this block has on record
after every call, also when the change has been visited. -/
theorem Graph.contested_attribution_kept :
    Graph.contested.Resolved ∧ (Graph.contested.blocks.map (·.id)).Nodup ∧
      ∃ s now waiting, analyzeAll (Graph.contested.sites .default) [some 1]
          (.fresh (Graph.contested.sites .default)) = .ok s ∧
        visitUpTo (Graph.contested.sites .default) 3 s (List.range 3) = .ok (now, waiting) ∧
        (now.record 1).map (fun d => (d.identity, d.kind)) = [(⟨"x", 1, 0, 1, 1⟩, .variable)] ∧
        (now.record 2).map (fun d => (d.identity, d.kind)) = [(⟨"x", 1, 0, 1, 1⟩, .mutation)] ∧
        ∃ next waiting', visitUpTo (Graph.contested.sites .default) 4 s (List.range 3)
            = .ok (next, waiting') ∧ Graph.contested.Keeps now next ∧
          ∃ t last waiting'', analyzeAll (Graph.contested.sites .default) [none, some 1] next = .ok t ∧
            visitUpTo (Graph.contested.sites .default) 2 t (List.range 3) = .ok (last, waiting'') ∧
            Graph.contested.Keeps now last := by
  have hresolved : Graph.contested.Resolved := by
    have hids : ∀ i : BlockId, (i = 2 ∨ i = 0) ∨ i = 2 → 0 = i ∨ 1 = i ∨ 2 = i := by grind
    simpa [Graph.Resolved, Graph.contested] using hids
  have hdistinct : (Graph.contested.blocks.map (·.id)).Nodup := by decide
  obtain ⟨s, now, waiting, hoks, hnow, hlater⟩ :=
    Graph.Resolved.attribution_kept hresolved hdistinct .default [some 1] 3
  obtain ⟨next, waiting', hnext, hkeeps, hmore⟩ := hlater 4 (by decide)
  have hrecords : (((analyzeAll (Graph.contested.sites .default) [some 1]
      (.fresh (Graph.contested.sites .default))).bind fun s =>
        visitUpTo (Graph.contested.sites .default) 3 s (List.range 3)).toOption.map fun r =>
          ((r.1.record 1).map (fun d => (d.identity, d.kind)),
            (r.1.record 2).map (fun d => (d.identity, d.kind)))) =
      some ([(⟨"x", 1, 0, 1, 1⟩, .variable)], [(⟨"x", 1, 0, 1, 1⟩, .mutation)]) := by
    decide +kernel
  have hnow' : visitUpTo (Graph.contested.sites .default) 3 s (List.range 3) = .ok (now, waiting) := hnow
  simp only [hoks, hnow', Except.bind, Except.toOption, Option.map_some, Option.some.injEq,
    Prod.mk.injEq] at hrecords
  exact ⟨hresolved, hdistinct, s, now, waiting, hoks, hnow', hrecords.1, hrecords.2, next, waiting',
    hnext, hkeeps, hmore [none, some 1] 2⟩

end Reaching
