/-
Which edges an analysis finds besides the def-use chains.

A visit starts from the block's own record too. On the first visit it is empty;
on a later one it holds what the block itself leaves at its end, so that the
replay leads from there to statements further up that read it, whether or not a
path leads around to them (`Site.Feeds`). The edges are the chains and, for every
block that was visited more than once, those it feeds to itself
(`Run.mem_edges_iff`). So an edge that is not a chain needs a second visit, and
the order of the visits decides about it.
-/
import Reaching.Proofs.DefUse
import Reaching.Proofs.Region

namespace Reaching

variable {sites : List Site}

/-! ## What a block feeds to itself -/

/-- An edge from a statement, whose definition the rest of its block leaves
alone, to a statement of the same block that reads the name, with no definition
of it on the way from the top of the block. -/
def Site.Feeds (b : Site) (x : Edge) : Prop :=
  ∃ r : Reference,
    (∃ (k : Nat) (f : Effect), b.effects[k]? = some f ∧ f.span = x.source ∧ f.Makes r ∧
      Clear (b.effects.drop (k + 1)) r.name) ∧
    ∃ (i : Nat) (e : Effect), b.effects[i]? = some e ∧ e.span = x.target ∧ r.name ∈ e.uses ∧
      Clear (b.effects.take i) r.name

/-- What some effects leave by themselves: what one of them makes and those
behind it do not define again. -/
theorem mem_outgoing_nil {effects : List Effect} {r : Reference} :
    r ∈ (outgoing effects []).identities ↔ ∃ (k : Nat) (f : Effect), effects[k]? = some f ∧
      f.Makes r ∧ Clear (effects.drop (k + 1)) r.name := by
  induction effects with
  | nil => simp [outgoing, Definitions.identities]
  | cons e rest ih =>
    have hnone : r ∉ Definitions.identities [] := by simp [Definitions.identities]
    rw [outgoing_cons, mem_identities_outgoing, ih, Effect.mem_identities_apply]
    simp only [hnone, false_and, or_false]
    constructor
    · rintro (⟨k, f, hf, hmakes, hclear⟩ | ⟨hmakes, hclear⟩)
      · exact ⟨k + 1, f, hf, hmakes, hclear⟩
      · exact ⟨0, e, rfl, hmakes, hclear⟩
    · rintro ⟨k, f, hf, hmakes, hclear⟩
      cases k with
      | zero =>
        obtain rfl : e = f := by simpa using hf
        exact .inr ⟨hmakes, hclear⟩
      | succ k => exact .inl ⟨k, f, hf, hmakes, hclear⟩

/-- What a block feeds to itself from a source that shares nothing. -/
theorem Site.feeds_iff {x : Edge} (hu : Unshared sites x.source) {b : Site} (hb : b ∈ sites) :
    b.Feeds x ↔ ∃ r, r ∈ (outgoing b.effects []).identities ∧ MadeAt sites r x.source ∧
      ∃ (i : Nat) (e : Effect), b.effects[i]? = some e ∧ e.span = x.target ∧ r.name ∈ e.uses ∧
        Clear (b.effects.take i) r.name := by
  constructor
  · rintro ⟨r, ⟨k, f, hf, hsource, hmakes, hclear⟩, hread⟩
    exact ⟨r, mem_outgoing_nil.2 ⟨k, f, hf, hmakes, hclear⟩,
      ⟨b, hb, f, List.mem_of_getElem? hf, hmakes, hsource⟩, hread⟩
  · rintro ⟨r, hr, hmade, hread⟩
    obtain ⟨k, f, hf, hmakes, hclear⟩ := mem_outgoing_nil.1 hr
    have hsource := hu r _ hmade ⟨b, hb, f, List.mem_of_getElem? hf, hmakes, rfl⟩
    exact ⟨r, ⟨k, f, hf, hsource, hmakes, hclear⟩, hread⟩

/-- A block that is visited more than once feeds an edge to itself. -/
def Refed (sites : List Site) (places : List Nat) (x : Edge) : Prop :=
  ∃ p b, sites[p]? = some b ∧ 1 < places.count p ∧ b.Feeds x

theorem Refed.append {places : List Nat} {x : Edge} (h : Refed sites places x) (p : Nat) :
    Refed sites (places ++ [p]) x := by
  obtain ⟨q, b, hq, hcount, hx⟩ := h
  refine ⟨q, b, hq, ?_, hx⟩
  rw [List.count_append]
  omega

/-! ## Edges of a visit -/

namespace Session

/-- **An edge of a visit** is a chain, or the block's own record fed it. -/
theorem Sound.chain_or_feeds (h : Linked sites) {x : Edge} (hu : Unshared sites x.source) {s : Session}
    (hs : s.Sound sites) {b : Site} (hb : b ∈ sites)
    (hx : Joins sites b (· ∈ (s.start b).identities) x) :
    Chain sites x ∨ (b.Feeds x ∧ s.record b.id ≠ []) := by
  obtain ⟨r, hmade, i, e, he, huse, ht, hr⟩ := hx
  have hi : i ≤ b.effects.length := Nat.le_of_lt (List.getElem?_eq_some_iff.1 he).1
  have chain : Arrives sites r ⟨b.id, i⟩ → Chain sites x := fun harr =>
    ⟨r, b, hb, i, e, he, huse, ht, harr.from hu hmade⟩
  have top : Arrives sites r b.top → Clear (b.effects.take i) r.name → Chain sites x :=
    fun htop hclear => chain ((arrives_iff h hb hi).2 (.inr ⟨htop, hclear⟩))
  rcases hr with hgen | ⟨hstart, hclear⟩
  · exact .inl (chain ((arrives_iff h hb hi).2 (.inl hgen)))
  · rcases mem_start.1 hstart with hown | hpreds
    · rcases (arrives_bottom h hb).1 (hs.arrives b hb r hown) with hleft | ⟨htop, -⟩
      · refine .inr ⟨(Site.feeds_iff hu hb).2 ⟨r, hleft, hmade, i, e, he, ht, huse, hclear⟩, ?_⟩
        intro hnil
        rw [hnil] at hown
        cases hown
      · exact .inl (top htop hclear)
    · exact .inl (top (hs.arrives_top h hb hpreds) hclear)

/-- A record that holds what its block leaves by itself feeds it to the block. -/
theorem joins_of_feeds {x : Edge} (hu : Unshared sites x.source) {s : Session} {b : Site} (hb : b ∈ sites)
    (hown : ∀ r ∈ (outgoing b.effects []).identities, r ∈ (s.record b.id).identities)
    (hx : b.Feeds x) : Joins sites b (· ∈ (s.start b).identities) x := by
  obtain ⟨r, hr, hmade, i, e, he, ht, huse, hclear⟩ := (Site.feeds_iff hu hb).1 hx
  exact ⟨r, hmade, i, e, he, huse, ht, .inr ⟨mem_start.2 (.inl (hown r hr)), hclear⟩⟩

/-! ## Edges of a run -/

/-- What a state owes to the blocks visited so far. Of the edges this tells those whose source shares
nothing. -/
structure Traced (sites : List Site) (seen : List Nat) (s : Session) : Prop where
  sound : s.Sound sites
  unvisited : ∀ p b, sites[p]? = some b → p ∉ seen → s.record b.id = []
  visited : ∀ p b, sites[p]? = some b → p ∈ seen →
    ∀ r ∈ (outgoing b.effects []).identities, r ∈ (s.record b.id).identities
  edges : ∀ x, Unshared sites x.source → x ∈ s.edges → Chain sites x ∨ Refed sites seen x
  refed : ∀ x, Unshared sites x.source → Refed sites seen x → x ∈ s.edges

theorem fresh_traced : Traced sites [] (fresh sites) where
  sound := fresh_sound
  unvisited := fun _ _ _ _ => fresh_record _
  visited := fun _ _ _ hp => absurd hp List.not_mem_nil
  edges := fun _ _ hx => absurd hx List.not_mem_nil
  refed := fun _ _ ⟨_, _, _, hcount, _⟩ => by simp at hcount

/-- **A visit keeps a state traced.** -/
theorem Traced.visited_block (h : Linked sites) (ho : Owned sites)
    {seen : List Nat} {s : Session} (hs : s.Traced sites seen) {p : Nat} {b : Site}
    (hp : sites[p]? = some b) : (s.visited b).Traced sites (seen ++ [p]) := by
  have hb := List.mem_of_getElem? hp
  have other : ∀ {q : Nat} {a : Site}, sites[q]? = some a → q ≠ p →
      (s.visited b).record a.id = s.record a.id := fun hq hne =>
    record_visited_of_ne fun hid => hne (h.place_inj hq hp hid)
  have hedges : ∀ {x : Edge}, Unshared sites x.source → (x ∈ (s.visited b).edges ↔
      x ∈ s.edges ∨ Joins sites b (· ∈ (s.start b).identities) x) := fun hu =>
    hs.sound.mem_edges_visited_iff h ho hu hb
  refine ⟨hs.sound.visited h hb, ?_, ?_, ?_, ?_⟩
  · intro q a hq hnot
    obtain ⟨hnot, hne⟩ : q ∉ seen ∧ q ≠ p := by simpa using hnot
    rw [other hq hne]
    exact hs.unvisited q a hq hnot
  · intro q a hq hmem r hr
    by_cases hqp : q = p
    · subst hqp
      obtain rfl : b = a := Option.some.inj (hp.symm.trans hq)
      rw [mem_identities_visited_self hs.sound.covers hb, result, mem_identities_outgoing]
      exact .inl hr
    · have hmem : q ∈ seen := by simpa [hqp] using hmem
      rw [other hq hqp]
      exact hs.visited q a hq hmem r hr
  · intro x hu hx
    rcases (hedges hu).1 hx with hx | hx
    · exact (hs.edges x hu hx).imp_right fun hx => hx.append p
    · obtain hchain | ⟨hfeeds, hrecord⟩ := hs.sound.chain_or_feeds h hu hb hx
      · exact .inl hchain
      -- a record that is not empty is from an earlier visit
      have hseen : p ∈ seen := Classical.byContradiction fun hnot =>
        hrecord (hs.unvisited p b hp hnot)
      refine .inr ⟨p, b, hp, ?_, hfeeds⟩
      have := List.count_pos_iff.2 hseen
      rw [List.count_append, List.count_singleton_self]
      omega
  · rintro x hu ⟨q, a, hq, hcount, hfeeds⟩
    by_cases hqp : q = p
    · subst hqp
      obtain rfl : b = a := Option.some.inj (hp.symm.trans hq)
      rw [List.count_append, List.count_singleton_self] at hcount
      have hseen : q ∈ seen := List.count_pos_iff.1 (by omega)
      exact (hedges hu).2 (.inr (joins_of_feeds hu hb (hs.visited q b hq hseen) hfeeds))
    · have hcount : 1 < seen.count q := by
        simpa [List.count_append, List.count_singleton, Ne.symm hqp] using hcount
      exact (hedges hu).2 (.inl (hs.refed x hu ⟨q, a, hq, hcount, hfeeds⟩))

end Session

/-- **The edges of a run to the end** from a fresh state are the def-use chains
and what blocks visited more than once feed to themselves, as far as their sources share nothing. -/
theorem Run.mem_edges_iff (h : Linked sites) (ho : Owned sites) {s : Session} {places : List Nat}
    (hrun : Run sites (.fresh sites) (List.range sites.length) places s []) {x : Edge}
    (hu : Unshared sites x.source) :
    x ∈ s.edges ↔ Chain sites x ∨ Refed sites places x := by
  have htraced : s.Traced sites places := by
    have := hrun.invariant (P := fun seen s _ => s.Traced sites seen) ?_ [] Session.fresh_traced
    · simpa using this
    · intro seen s s' p b waiting waiting' hs hp hv
      obtain ⟨rfl, -⟩ := visit_cases h hs.sound.covers (List.mem_of_getElem? hp) hv
      exact hs.visited_block h ho hp
  refine ⟨htraced.edges x hu, ?_⟩
  rintro (hx | hx)
  · exact Run.mem_edges_of_chain h ho Session.fresh_sound hrun hu hx
  · exact htraced.refed x hu hx

/-! ## Graphs of modules -/

/-- **When the edges are exact.** On the graph of a body whose definitions are
unambiguous an analysis without a budget ends. Its edges are the def-use chains
and what the blocks visited more than once feed to themselves; so all of them are
chains just when everything that such a block feeds to itself is one. -/
theorem Graph.edges_exact_iff {m : Code.Module} {function : Option String} {g : Graph}
    (hg : Graph.of m function = .ok g) (rules : Rules) (hu : Unambiguous (g.sites rules)) :
    ∃ places s, Run (g.sites rules) (.fresh (g.sites rules)) (List.range (g.sites rules).length)
        places s [] ∧
      analyze (g.sites rules) none (.fresh (g.sites rules)) = .ok (s, ⟨places.length, false⟩) ∧
      (∀ x, x ∈ s.edges ↔ Chain (g.sites rules) x ∨ Refed (g.sites rules) places x) ∧
      ((∀ x ∈ s.edges, Chain (g.sites rules) x) ↔
        ∀ x, Refed (g.sites rules) places x → Chain (g.sites rules) x) := by
  have h := (Graph.of_linked hg).sites rules
  obtain ⟨places, s, hrun, hok, -⟩ := h.exists_finished
  have hedges : ∀ x, x ∈ s.edges ↔ Chain (g.sites rules) x ∨ Refed (g.sites rules) places x :=
    fun x => hrun.mem_edges_iff h (g.sites_owned rules) (hu.unshared _)
  refine ⟨places, s, hrun, hok, hedges, fun hall x hx => hall x ((hedges x).2 (.inr hx)), ?_⟩
  intro hall x hx
  exact ((hedges x).1 hx).elim id (hall x)

open Code in
/-- A branch whose `else` part is laid out behind the block where its parts meet,
and is visited after it. In that block a name is read and then bound. -/
def Code.Module.lateElse : Module :=
  let x (line : Int) : Expr := .at ⟨line, 0, line, 1⟩ (.name "x")
  let one (line column : Int) : Expr := .at ⟨line, column, line, column + 1⟩ (.constant (.int 1))
  { body :=
      [.at ⟨1, 0, 4, 9⟩ (.ifElse (one 1 3) [.at ⟨2, 4, 2, 8⟩ .pass]
        [.at ⟨4, 4, 4, 9⟩ (.assign [.at ⟨4, 4, 4, 5⟩ (.name "y")] (one 4 8))]),
      .at ⟨5, 0, 5, 1⟩ (.expr (x 5)),
      .at ⟨6, 0, 6, 5⟩ (.assign [x 6] (one 6 4))] }

theorem Graph.lateElse_unambiguous : Unambiguous ((Graph.ofModule .lateElse).sites .empty) := by
  decide +kernel

/-- The hypotheses of `edges_exact_iff` hold of a module with a branch. -/
theorem Graph.lateElse_edges_exact_iff :
    Graph.of .lateElse none = .ok (Graph.ofModule .lateElse) ∧
      Unambiguous ((Graph.ofModule .lateElse).sites .empty) ∧
      ∃ places s, analyze ((Graph.ofModule .lateElse).sites .empty) none
          (.fresh ((Graph.ofModule .lateElse).sites .empty)) = .ok (s, ⟨places.length, false⟩) ∧
        ((∀ x ∈ s.edges, Chain ((Graph.ofModule .lateElse).sites .empty) x) ↔
          ∀ x, Refed ((Graph.ofModule .lateElse).sites .empty) places x →
            Chain ((Graph.ofModule .lateElse).sites .empty) x) := by
  have hg : Graph.of .lateElse none = .ok (Graph.ofModule .lateElse) := rfl
  obtain ⟨places, s, -, hok, -, hexact⟩ := Graph.edges_exact_iff hg .empty Graph.lateElse_unambiguous
  exact ⟨hg, Graph.lateElse_unambiguous, places, s, hok, hexact⟩

/-- From a block that no link leaves, paths lead on in that block only. -/
theorem block_eq_of_path {name : Text} {b : Site} (h : Linked sites) (hb : b ∈ sites)
    (hsuccs : b.succs = []) {p q : Point} (hp : p.block = b.id)
    (hpath : Relation.ReflTransGen (ClearStep sites name) p q) : q.block = b.id ∧ p.index ≤ q.index := by
  induction hpath with
  | refl => exact ⟨hp, Nat.le_refl _⟩
  | tail _ hstep ih =>
    obtain ⟨hblock, hindex⟩ := ih
    cases hstep with
    | statement ha _ _ => exact ⟨hblock, Nat.le_succ_of_le hindex⟩
    | link ha hj =>
      obtain rfl := h.eq_of_id ha hb hblock
      rw [hsuccs] at hj
      cases hj

/-- **An edge without a path.** The block where the parts of the branch meet is
visited before the `else` part and again after it, and the second visit leads
from the binding at its end back to the name that is read in front of it. No
path does: the block is the last one of the module. -/
theorem Graph.lateElse_edge_without_path :
    Unambiguous ((Graph.ofModule .lateElse).sites .empty) ∧
      ∃ s o, analyze ((Graph.ofModule .lateElse).sites .empty) none
          (.fresh ((Graph.ofModule .lateElse).sites .empty)) = .ok (s, o) ∧
        ⟨⟨6, 0, 6, 5⟩, ⟨5, 0, 5, 1⟩⟩ ∈ s.edges ∧
        ¬ Chain ((Graph.ofModule .lateElse).sites .empty) ⟨⟨6, 0, 6, 5⟩, ⟨5, 0, 5, 1⟩⟩ := by
  have h : Reaching.Linked ((Graph.ofModule .lateElse).sites .empty) :=
    (Graph.ofBody_linked ..).sites _
  obtain ⟨places, s, -, hok, -⟩ := h.exists_finished
  refine ⟨Graph.lateElse_unambiguous, s, _, hok, ?_, ?_⟩
  · have hfound : ((analyze ((Graph.ofModule .lateElse).sites .empty) none
        (.fresh ((Graph.ofModule .lateElse).sites .empty))).toOption.any fun r =>
          r.1.edges.contains ⟨⟨6, 0, 6, 5⟩, ⟨5, 0, 5, 1⟩⟩) = true := by decide +kernel
    rw [hok] at hfound
    simpa [Except.toOption] using hfound
  · -- the binding and the name are in block 2, which no link leaves, the name at its top
    have hsource : ∀ b ∈ (Graph.ofModule .lateElse).sites .empty, ∀ e ∈ b.effects,
        e.span = ⟨6, 0, 6, 5⟩ → b.id = 2 ∧ b.succs = [] := by decide +kernel
    have htarget : ∀ b ∈ (Graph.ofModule .lateElse).sites .empty, b.id = 2 →
        ∀ e ∈ b.effects.drop 1, e.span ≠ ⟨5, 0, 5, 1⟩ := by decide +kernel
    rintro ⟨r, b, hb, i, e, he, -, ht, a, ha, k, f, hf, hs, -, hpath⟩
    obtain ⟨hid, hsuccs⟩ := hsource a ha f (List.mem_of_getElem? hf) hs
    obtain ⟨hblock, hindex⟩ := block_eq_of_path h ha hsuccs rfl hpath
    have hdrop : e ∈ b.effects.drop 1 := by
      refine List.mem_of_getElem? (i := i - 1) ?_
      rw [List.getElem?_drop, ← he]
      congr 1
      simp only at hindex
      omega
    exact htarget b hb (hblock.trans hid) e hdrop ht

end Reaching
