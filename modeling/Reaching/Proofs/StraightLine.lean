/-
What the analysis finds of straight-line code, exactly.

A body without branches, loops and jumps is laid out as one block (`Graph.ofBody_straight`), so
the analysis is one replay over nothing. A replay drops a name before it adds the definitions
that a statement makes of it, so the two sets that it joins have nothing in common and both are
kept whole (`Effect.mem_apply`). By induction what is there in front of a statement are the
definitions of each name that the last statement to define it makes (`mem_outgoing_iff`),
however many a statement makes of one name and whatever it makes them for.
-/
import Reaching.Proofs.DefUse
import Reaching.Proofs.Placement

namespace Reaching

open Code Fragment

/-! ## Replays -/

/-- Sets with nothing in common are joined whole. -/
theorem Definitions.union_eq_append {es : Definitions} (hes : es.identities.Nodup) :
    ∀ {ds : Definitions}, (∀ r ∈ es.identities, r ∉ ds.identities) → ds.union es = ds ++ es := by
  induction es with
  | nil => exact fun _ => (List.append_nil _).symm
  | cons e es ih =>
    intro ds hapart
    obtain ⟨hnot, hes⟩ := List.nodup_cons.1 hes
    have hnew : ds.insert e = ds ++ [e] :=
      if_neg fun h => hapart e.identity (List.mem_cons_self ..) (has_iff.1 h)
    have hunion : (ds ++ [e]).union es = ds ++ [e] ++ es := by
      refine ih hes fun r hr hmem => ?_
      simp only [identities, List.map_append, List.mem_append, List.map_cons, List.map_nil,
        List.mem_singleton] at hmem
      rcases hmem with hmem | rfl
      · exact hapart r (List.mem_cons_of_mem _ hr) hmem
      · exact hnot hr
    rw [union, List.foldl_cons, hnew]
    exact hunion.trans (by simp)

/-- **After an effect there are all its definitions**, and all those before it of names that
it does not define. -/
theorem Effect.mem_apply {e : Effect} (he : e.definitions.identities.Nodup) {ds : Definitions}
    {d : Definition} : d ∈ e.apply ds ↔ (d ∈ ds ∧ ¬ e.Defines d.name) ∨ d ∈ e.definitions := by
  have hapart : ∀ r ∈ e.definitions.identities,
      r ∉ Definitions.identities (ds.filter fun d => !e.definitions.any fun f => f.name = d.name) := by
    intro r hr hmem
    obtain ⟨f, hf, rfl⟩ := List.mem_map.1 hr
    obtain ⟨d, hd, hid⟩ := List.mem_map.1 hmem
    have hname : f.name = d.name := congrArg Reference.name hid.symm
    have hfree := (List.mem_filter.1 hd).2
    simp only [Bool.not_eq_true', List.any_eq_false, decide_eq_true_eq] at hfree
    exact hfree f hf hname
  rw [apply, Definitions.union_eq_append he hapart, List.mem_append, List.mem_filter]
  simp [Defines]

/-- **After some effects** there is what one of them makes and those behind it do not define
again, and what was there before of names that none of them defines. -/
theorem mem_outgoing_iff {effects : List Effect} (hall : ∀ e ∈ effects, e.definitions.identities.Nodup)
    {ds : Definitions} {d : Definition} :
    d ∈ outgoing effects ds ↔ (d ∈ ds ∧ Clear effects d.name) ∨ ∃ (i : Nat) (e : Effect),
      effects[i]? = some e ∧ d ∈ e.definitions ∧ Clear (effects.drop (i + 1)) d.name := by
  induction effects generalizing ds with
  | nil => simp [outgoing]
  | cons e rest ih =>
    rw [outgoing_cons, ih fun f hf => hall f (List.mem_cons_of_mem _ hf),
      Effect.mem_apply (hall e (List.mem_cons_self ..)), clear_cons]
    constructor
    · rintro (⟨⟨hd, hfree⟩ | hd, hclear⟩ | ⟨i, f, hf, hd, hclear⟩)
      · exact .inl ⟨hd, hfree, hclear⟩
      · exact .inr ⟨0, e, rfl, hd, hclear⟩
      · exact .inr ⟨i + 1, f, hf, hd, hclear⟩
    · rintro (⟨hd, hfree, hclear⟩ | ⟨i, f, hf, hd, hclear⟩)
      · exact .inl ⟨.inl ⟨hd, hfree⟩, hclear⟩
      · cases i with
        | zero =>
          obtain rfl : e = f := by simpa using hf
          exact .inl ⟨.inr hd, hclear⟩
        | succ i => exact .inr ⟨i, f, hf, hd, hclear⟩

/-! ## Statements in a row -/

/-- The statement at one place makes a definition of a name, and none between it and another
place does. -/
structure DefinesLast (rules : Rules) (placed : List Stmt) (name : Text) (i j : Nat) : Prop where
  before : i < j
  defines : ∃ s, placed[i]? = some s ∧ (s.effect rules).Defines name
  between : ∀ k s, i < k → k < j → placed[k]? = some s → ¬ (s.effect rules).Defines name

variable {rules : Rules} {placed : List Stmt}

theorem nodup_identities_definitions (rules : Rules) (s : Stmt) : (s.definitions rules).identities.Nodup :=
  Definitions.nodup_identities_union (Definitions.nodup_identities_union
    (Definitions.nodup_identities_union .nil))

theorem getElem?_take_effects {i j : Nat} {e : Effect} :
    ((placed.map (Stmt.effect rules)).take j)[i]? = some e ↔
      i < j ∧ ∃ s, placed[i]? = some s ∧ s.effect rules = e := by
  rw [List.getElem?_take]
  split <;> simp_all

/-- None of the effects between two places defines a name. -/
theorem clear_between_iff {i j : Nat} {name : Text} :
    Clear (((placed.map (Stmt.effect rules)).take j).drop (i + 1)) name ↔
      ∀ k s, i < k → k < j → placed[k]? = some s → ¬ (s.effect rules).Defines name := by
  constructor
  · intro hclear k s hik hkj hs
    refine hclear _ (List.mem_of_getElem? (i := k - (i + 1)) ?_)
    rw [List.getElem?_drop, Nat.add_sub_cancel' hik]
    exact getElem?_take_effects.2 ⟨hkj, s, hs, rfl⟩
  · intro hbetween e he
    obtain ⟨k, hk⟩ := List.getElem?_of_mem he
    rw [List.getElem?_drop] at hk
    obtain ⟨hkj, s, hs, rfl⟩ := getElem?_take_effects.1 hk
    exact hbetween _ s (by omega) hkj hs

/-- **In front of a place there are the definitions of each name that the last statement to
define it makes**, if there was nothing at first. -/
theorem mem_outgoing_take_iff {j : Nat} {d : Definition} :
    d ∈ outgoing ((placed.map (Stmt.effect rules)).take j) [] ↔ ∃ (i : Nat) (s : Stmt),
      placed[i]? = some s ∧ d ∈ s.definitions rules ∧ DefinesLast rules placed d.name i j := by
  have hnodup : ∀ e ∈ (placed.map (Stmt.effect rules)).take j, e.definitions.identities.Nodup := by
    intro e he
    obtain ⟨s, -, rfl⟩ := List.mem_map.1 (List.mem_of_mem_take he)
    exact nodup_identities_definitions rules s
  rw [mem_outgoing_iff hnodup]
  constructor
  · rintro (⟨hd, -⟩ | ⟨i, e, he, hd, hclear⟩)
    · cases hd
    · obtain ⟨hij, s, hs, rfl⟩ := getElem?_take_effects.1 he
      exact ⟨i, s, hs, hd, hij, ⟨s, hs, d, hd, rfl⟩, clear_between_iff.1 hclear⟩
  · rintro ⟨i, s, hs, hd, hij, -, hbetween⟩
    exact .inr ⟨i, s.effect rules, getElem?_take_effects.2 ⟨hij, s, hs, rfl⟩, hd,
      clear_between_iff.2 hbetween⟩

/-- **The edges of a replay over nothing** lead to each statement from the last one in front
of it that defines a name which it reads. -/
theorem mem_edgesAlong_nil_iff {x : Edge} :
    x ∈ edgesAlong (placed.map (Stmt.effect rules)) [] ↔ ∃ i j s t name,
      placed[i]? = some s ∧ placed[j]? = some t ∧ x = ⟨s.span, t.span⟩ ∧
        name ∈ (t.effect rules).uses ∧ DefinesLast rules placed name i j := by
  rw [mem_edgesAlong]
  constructor
  · rintro ⟨j, e, he, hx⟩
    obtain ⟨t, ht, rfl⟩ : ∃ t, placed[j]? = some t ∧ t.effect rules = e := by
      simpa using he
    obtain ⟨d, hd, huse, rfl⟩ := Effect.mem_edges.1 hx
    obtain ⟨i, s, hs, hmade, hlast⟩ := mem_outgoing_take_iff.1 hd
    rw [Stmt.owner_of_mem_definitions hmade]
    exact ⟨i, j, s, t, d.name, hs, ht, rfl, huse, hlast⟩
  · rintro ⟨i, j, s, t, name, hs, ht, rfl, huse, hlast⟩
    obtain ⟨s', hs', d, hd, rfl⟩ := hlast.defines
    obtain rfl : s = s' := Option.some.inj (hs.symm.trans hs')
    refine ⟨j, t.effect rules, by simp [ht], Effect.mem_edges.2 ⟨d, ?_, huse, ?_⟩⟩
    · exact mem_outgoing_take_iff.2 ⟨i, s, hs, hd, hlast⟩
    · rw [Stmt.owner_of_mem_definitions hd]
      rfl

/-! ## One block -/

mutual

/-- Whether a statement is run in one piece, or opens items around such statements. -/
def Code.Stmt.isStraight : Stmt → Bool
  | .at _ (.withItems _ _ body) => allStraight body
  | .at span form => (Stmt.at span form).isSimple

def allStraight : List Stmt → Bool
  | [] => true
  | s :: rest => s.isStraight && allStraight rest

end

namespace Fragment

theorem placing_eq (f : Fragment) (b : BlockId) (statements : List Stmt) :
    f.placing b statements = { f with placed := f.placed ++ statements.map fun s => (b, s) } := by
  unfold placing
  induction statements generalizing f with
  | nil => simp
  | cons s rest ih =>
    have hstep : f ++ places b s = { f with placed := f.placed ++ [(b, s)] } := by
      show append f (places b s) = _
      simp [append, places]
    rw [List.foldl_cons, ih, hstep]
    simp

theorem append_placing (f : Fragment) (b : BlockId) (statements : List Stmt) :
    f ++ placing {} b statements = f.placing b statements := by
  rw [placing_eq, placing_eq]
  show append f _ = _
  simp [append]

theorem placing_placing (f : Fragment) (b : BlockId) (statements others : List Stmt) :
    (f.placing b statements).placing b others = f.placing b (statements ++ others) :=
  List.foldl_append.symm

end Fragment

mutual

/-- **Straight-line code is laid out in the current block alone.** -/
theorem layOut_straight (loop : Option Loop) (current : BlockId) :
    ∀ (s : Stmt) (fresh : BlockId), s.isStraight = true →
      layOut loop current fresh s = (placing {} current s.pieces, current)
  | .at span form, fresh, h => by
    cases form with
    | withItems isAsync items body =>
      rw [layOut_withItems span isAsync items (layOutAll_straight loop current body fresh h),
        append_placing, placing_placing]
      rfl
    | ifElse | whileLoop | forLoop | matchCases | tryBlock | ret | breakLoop | continueLoop => cases h
    | _ => rfl

theorem layOutAll_straight (loop : Option Loop) (current : BlockId) :
    ∀ (body : List Stmt) (fresh : BlockId), allStraight body = true →
      layOutAll loop current fresh body = (placing {} current (allPieces body), current)
  | [], _, _ => rfl
  | s :: rest, fresh, h => by
    obtain ⟨hs, hrest⟩ := (Bool.and_eq_true ..).mp h
    simp only [layOutAll, layOut_straight loop current s fresh hs, layOutAll_straight loop current rest _ hrest,
      append_placing, placing_placing, allPieces]

end

/-- The graph of straight-line code is one block, and no link leads to it or from it. -/
theorem Graph.ofBody_straight (name : String) (line : Int) (bindings : List Stmt) {body : List Stmt}
    (h : allStraight body = true) :
    ∃ b, (Graph.ofBody name line bindings body).blocks = [b] ∧
      b.id = (Graph.ofBody name line bindings body).entry ∧
      b.statements = (bindings ++ allPieces body).map some ∧ b.preds = [] ∧ b.succs = [] := by
  rw [Graph.ofBody_eq name line bindings (layOutAll_straight none 0 body 1 h), append_placing,
    placing_placing, placing_eq]
  refine ⟨_, rfl, rfl, ?_, rfl, rfl⟩
  simp [blockOf, statementsOf, opens, List.filter_map, Function.comp_def]

/-! ## The analysis -/

section Alone

variable {b : Site}

/-- **A block without links is replayed once**, over nothing. -/
theorem analyze_alone (hpreds : b.preds = []) (hsuccs : b.succs = []) :
    analyze [b] none (.fresh [b]) = .ok ((Session.fresh [b]).visited b, ⟨1, false⟩) ∧
      ((Session.fresh [b]).visited b).record b.id = outgoing b.effects [] ∧
      ∀ x, x ∈ ((Session.fresh [b]).visited b).edges ↔ x ∈ edgesAlong b.effects [] := by
  have hres : Resolved [b] := by
    intro a ha i hi
    obtain rfl := List.mem_singleton.1 ha
    simp [hpreds, hsuccs] at hi
  have hcov : (Session.fresh [b]).Covers [b] := Session.fresh_covers
  have hstart : (Session.fresh [b]).start b = [] := by
    rw [Session.start, hpreds, Session.merged, Session.fresh_record]
    rfl
  have hrecord := Session.record_visited_self hcov (List.mem_singleton_self b)
  refine ⟨?run, ?record, ?edges⟩
  case run =>
    obtain ⟨waiting, hv, hcases⟩ := visit_ok hres hcov (List.mem_singleton_self b) []
    have hnone : waiting = [] := by
      rcases hcases with ⟨-, rfl⟩ | ⟨-, hmem, -⟩
      · rfl
      · exact List.eq_nil_iff_forall_not_mem.2 fun p hp => by simp [hmem, hsuccs] at hp
    subst hnone
    exact Run.analyze_eq hres hcov (.visit (p := 0) rfl hv .stop) (by simp [visitBound])
  case record =>
    rw [Session.result, hstart, Session.fresh_record] at hrecord
    rcases hrecord with ⟨hsame, hrec⟩ | ⟨-, hrec⟩
    · have hnone : outgoing b.effects [] = [] := List.eq_nil_iff_forall_not_mem.2 fun d hd =>
        List.not_mem_nil ((Definitions.sameAs_iff.1 hsame _).1 (List.mem_map_of_mem hd))
      rw [hrec, hnone]
    · exact hrec
  case edges =>
    intro x
    rw [Session.mem_edges_visited, hstart]
    simp [Session.fresh]

end Alone

/-- **Straight-line code is analysed exactly.** A body whose only compound statements are
definitions and `with` statements, and that has no jump, becomes one block, which the analysis
visits once. There is an edge between two statements just when the first makes a definition of
a name that the second reads and none between them makes one; and what is recorded at the end
are, for each name, the definitions of it that the last statement to define it makes. -/
theorem Graph.straight_exact (name : String) (line : Int) (bindings : List Stmt) {body : List Stmt}
    (rules : Rules) (h : allStraight body = true) :
    let g := Graph.ofBody name line bindings body
    let placed := bindings ++ allPieces body
    ∃ b s, g.blocks = [b] ∧ b.id = g.entry ∧ b.statements = placed.map some ∧
      analyze (g.sites rules) none (.fresh (g.sites rules)) = .ok (s, ⟨1, false⟩) ∧
      (∀ x, x ∈ s.edges ↔ ∃ i j s t name, placed[i]? = some s ∧ placed[j]? = some t ∧
        x = ⟨s.span, t.span⟩ ∧ name ∈ (t.effect rules).uses ∧ DefinesLast rules placed name i j) ∧
      (s.record g.entry).identities.Nodup ∧
      ∀ d, d ∈ s.record g.entry ↔ ∃ i t, placed[i]? = some t ∧ d ∈ t.definitions rules ∧
        DefinesLast rules placed d.name i placed.length := by
  intro g placed
  obtain ⟨b, hblocks, hentry, hstatements, hpreds, hsuccs⟩ := Graph.ofBody_straight name line bindings h
  have heffects : (b.site rules).effects = placed.map (Stmt.effect rules) := by
    show b.statements.map (Effect.of rules) = _
    rw [hstatements, List.map_map]
    rfl
  have hsites : g.sites rules = [b.site rules] := by
    rw [Graph.sites, hblocks]
    rfl
  obtain ⟨hok, hrecord, hedges⟩ := analyze_alone (b := b.site rules) hpreds hsuccs
  have hid : (b.site rules).id = g.entry := hentry
  rw [hid] at hrecord
  rw [hsites]
  refine ⟨b, _, hblocks, hentry, hstatements, hok, fun x => ?_, ?_, fun d => ?_⟩
  · rw [hedges, heffects, mem_edgesAlong_nil_iff]
  · rw [hrecord]
    exact nodup_identities_outgoing .nil
  · have hall : placed.map (Stmt.effect rules) = (placed.map (Stmt.effect rules)).take placed.length := by
      rw [List.take_of_length_le (by simp)]
    rw [hrecord, heffects, hall, mem_outgoing_take_iff]

open Code in
/-- `x = x = 1`, and then `with x as x:` around `x.append(x)`. -/
def Code.Module.straight : Module :=
  let x (line column : Int) : Expr := .at ⟨line, column, line, column + 1⟩ (.name "x")
  { body :=
      [.at ⟨1, 0, 1, 9⟩ (.assign [x 1 0, x 1 4] (.at ⟨1, 8, 1, 9⟩ (.constant (.int 1)))),
      .at ⟨2, 0, 3, 15⟩ (.withItems false [⟨x 2 5, some (x 2 10)⟩]
        [.at ⟨3, 4, 3, 15⟩ (.expr (.at ⟨3, 4, 3, 15⟩
          (.call (.at ⟨3, 4, 3, 12⟩ (.attribute (x 3 4) "append")) [x 3 13] [])))])] }

/-- The item reads what the first line defines and defines it again, for the call to read, which
changes it at last. -/
theorem Graph.straight_module_exact :
    allStraight Module.straight.body = true ∧
      let g := Graph.ofModule .straight
      ∃ s, analyze (g.sites .default) none (.fresh (g.sites .default)) = .ok (s, ⟨1, false⟩) ∧
        ⟨⟨1, 0, 1, 9⟩, ⟨2, 5, 2, 11⟩⟩ ∈ s.edges ∧ ⟨⟨2, 5, 2, 11⟩, ⟨3, 4, 3, 15⟩⟩ ∈ s.edges ∧
        ∃ d ∈ s.record g.entry, d.name = "x" ∧ d.kind = .mutation := by
  have hstraight : allStraight Module.straight.body = true := by decide +kernel
  obtain ⟨b, s, -, -, -, hok, hedges, -, hrecord⟩ := Graph.straight_exact "<module>" 1 [] .default hstraight
  refine ⟨hstraight, s, hok, (hedges _).2 ?_, (hedges _).2 ?_, ?_⟩
  · refine ⟨0, 1, _, _, "x", rfl, rfl, rfl, by decide +kernel, ⟨by decide, ⟨_, rfl, by decide +kernel⟩, ?_⟩⟩
    omega
  · refine ⟨1, 2, _, _, "x", rfl, rfl, rfl, by decide +kernel, ⟨by decide, ⟨_, rfl, by decide +kernel⟩, ?_⟩⟩
    omega
  · obtain ⟨t, ht, d, hd, hname, hkind⟩ : ∃ t, (allPieces Module.straight.body)[2]? = some t ∧
        ∃ d ∈ t.definitions .default, d.name = Text.ofString "x" ∧ d.kind = .mutation := ⟨_, rfl, by decide +kernel⟩
    refine ⟨d, (hrecord d).2 ⟨2, t, ht, hd, by decide, ⟨t, ht, d, hd, rfl⟩, fun k s hk hlast => ?_⟩,
      hname, hkind⟩
    simp [allPieces, Stmt.pieces, Module.straight, itemHeaders] at hlast
    omega

end Reaching
