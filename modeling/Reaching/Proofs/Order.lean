/-
Edges and the order of the blocks.

The order of the blocks decides in which order they are visited, and so which of
them are visited more than once. The edges of every order are the def-use chains,
which know no order, and what the blocks visited more than once feed to themselves
(`Run.mem_edges_iff`). So two orders give the same edges just when these differ in
chains only (`Graph.edges_of_order_iff`). After a second call all blocks have been
visited more than once, and the order makes no difference any more.
-/
import Reaching.Proofs.Repetition

namespace Reaching

variable {sites : List Site}

theorem MadeAt.mono {other : List Site} (hsub : ∀ b ∈ sites, b ∈ other) {r : Reference} {origin : Span}
    (h : MadeAt sites r origin) : MadeAt other r origin := by
  obtain ⟨b, hb, hmade⟩ := h
  exact ⟨b, hsub b hb, hmade⟩

/-- What is not shared is not where some blocks are left out. -/
theorem Unshared.mono {other : List Site} (hsub : ∀ b ∈ sites, b ∈ other) {origin : Span}
    (h : Unshared other origin) : Unshared sites origin :=
  fun r origin' hmade hmade' => h r origin' (hmade.mono hsub) (hmade'.mono hsub)

/-- Definitions stay unambiguous where some blocks are left out. -/
theorem Unambiguous.mono {other : List Site} (hsub : ∀ b ∈ sites, b ∈ other) (h : Unambiguous other) :
    Unambiguous sites :=
  fun r origin origin' hmade hmade' => h r origin origin' (hmade.mono hsub) (hmade'.mono hsub)

/-- What a block that is visited more than once feeds to itself is one of the edges
that blocks feed to themselves. -/
theorem Refed.feeds {places : List Nat} {x : Edge} (h : Refed sites places x) :
    ∃ b ∈ sites, b.Feeds x := by
  obtain ⟨p, b, hp, -, hfeeds⟩ := h
  exact ⟨b, List.mem_of_getElem? hp, hfeeds⟩

/-- **The edges after one call and after two.** A first call finds the def-use chains
and what the blocks that it visits more than once feed to themselves, as far as their
sources share nothing; a second one adds what any block feeds to itself. -/
theorem Linked.exists_two_calls (h : Linked sites) (ho : Owned sites) :
    ∃ places s t, Run sites (.fresh sites) (List.range sites.length) places s [] ∧
      analyze sites none (.fresh sites) = .ok (s, ⟨places.length, false⟩) ∧
      analyze sites none s = .ok (t, ⟨sites.length, false⟩) ∧
      (∀ x, Unshared sites x.source → (x ∈ s.edges ↔ Chain sites x ∨ Refed sites places x)) ∧
      ∀ x, x ∈ t.edges ↔ x ∈ s.edges ∨ ∃ b ∈ sites, b.Feeds x := by
  obtain ⟨places, s, t, hrun, hok, hagain, -, hadded⟩ := h.exists_second_call ho
  exact ⟨places, s, t, hrun, hok, hagain, fun x => hrun.mem_edges_iff h ho, hadded⟩

/-- **When two orders give the same edges.** The blocks of the graph of a body are put into
another order. Look at the edges from sources that share nothing with statements of other spans,
which are all if definitions are unambiguous. In both orders these are the def-use chains, and
what the blocks visited more than once feed to themselves. So they are the same just when such
blocks feed the same of them to themselves in both orders, those apart that are chains. A second
call adds what any block feeds to itself, so it makes them the same in any case. Edges from other
sources have to be the same by themselves, for the orders to give the same edges. -/
theorem Graph.edges_of_order_iff {m : Code.Module} {function : Option String} {g : Graph}
    (hg : Graph.of m function = .ok g) (rules : Rules) {g' : Graph} (hperm : g'.blocks.Perm g.blocks) :
    ∃ places s t places' s' t',
      analyze (g.sites rules) none (.fresh (g.sites rules)) = .ok (s, ⟨places.length, false⟩) ∧
      analyze (g'.sites rules) none (.fresh (g'.sites rules)) = .ok (s', ⟨places'.length, false⟩) ∧
      Run (g.sites rules) (.fresh (g.sites rules)) (List.range (g.sites rules).length) places s [] ∧
      Run (g'.sites rules) (.fresh (g'.sites rules)) (List.range (g'.sites rules).length) places' s' [] ∧
      (∀ x, Unshared (g.sites rules) x.source →
        (x ∈ s.edges ↔ Chain (g.sites rules) x ∨ Refed (g.sites rules) places x)) ∧
      (∀ x, Unshared (g.sites rules) x.source →
        (x ∈ s'.edges ↔ Chain (g.sites rules) x ∨ Refed (g'.sites rules) places' x)) ∧
      ((∀ x, x ∈ s'.edges ↔ x ∈ s.edges) ↔
        (∀ x, Unshared (g.sites rules) x.source → ¬ Chain (g.sites rules) x →
          (Refed (g'.sites rules) places' x ↔ Refed (g.sites rules) places x)) ∧
        ∀ x, ¬ Unshared (g.sites rules) x.source → (x ∈ s'.edges ↔ x ∈ s.edges)) ∧
      (Unambiguous (g.sites rules) → ((∀ x, x ∈ s'.edges ↔ x ∈ s.edges) ↔
        ∀ x, ¬ Chain (g.sites rules) x →
          (Refed (g'.sites rules) places' x ↔ Refed (g.sites rules) places x))) ∧
      analyze (g.sites rules) none s = .ok (t, ⟨g.blocks.length, false⟩) ∧
      analyze (g'.sites rules) none s' = .ok (t', ⟨g.blocks.length, false⟩) ∧
      (∀ x, x ∈ t.edges ↔ x ∈ s.edges ∨ ∃ b ∈ g.sites rules, b.Feeds x) ∧
      (∀ x, x ∈ t'.edges ↔ x ∈ s'.edges ∨ ∃ b ∈ g.sites rules, b.Feeds x) ∧
      (∀ x, Unshared (g.sites rules) x.source → (x ∈ t'.edges ↔ x ∈ t.edges)) ∧
      (Unambiguous (g.sites rules) → ∀ x, x ∈ t'.edges ↔ x ∈ t.edges) := by
  have hlinked := Graph.of_linked hg
  have hsame := Graph.mem_sites_of_perm hperm rules
  obtain ⟨places, s, t, hrun, hok, hagain, hedges, hall⟩ :=
    (hlinked.sites rules).exists_two_calls (g.sites_owned rules)
  obtain ⟨places', s', t', hrun', hok', hagain', hedges', hall'⟩ :=
    ((hlinked.of_perm hperm).sites rules).exists_two_calls (g'.sites_owned rules)
  -- neither chains nor what blocks feed to themselves depends on the order
  have hchain : ∀ x, Chain (g'.sites rules) x ↔ Chain (g.sites rules) x := fun x =>
    ⟨Chain.mono fun b => (hsame b).1, Chain.mono fun b => (hsame b).2⟩
  have hfeeds : ∀ x, (∃ b ∈ g'.sites rules, b.Feeds x) ↔ ∃ b ∈ g.sites rules, b.Feeds x := fun x =>
    exists_congr fun b => and_congr_left fun _ => hsame b
  have hedges' : ∀ x, Unshared (g.sites rules) x.source →
      (x ∈ s'.edges ↔ Chain (g.sites rules) x ∨ Refed (g'.sites rules) places' x) := fun x hu => by
    rw [hedges' x (hu.mono fun b => (hsame b).1), hchain]
  simp only [hfeeds] at hall'
  rw [Graph.sites, List.length_map, ← Graph.sites] at hagain hagain'
  rw [hperm.length_eq] at hagain'
  -- for one edge: the orders agree on it just when they agree on whether it was fed
  have hone : ∀ x, Unshared (g.sites rules) x.source → ((x ∈ s'.edges ↔ x ∈ s.edges) ↔
      (¬ Chain (g.sites rules) x →
        (Refed (g'.sites rules) places' x ↔ Refed (g.sites rules) places x))) := fun x hu => by
    rw [hedges x hu, hedges' x hu]
    by_cases hx : Chain (g.sites rules) x <;> simp [hx]
  have hsecond : ∀ x, Unshared (g.sites rules) x.source → (x ∈ t'.edges ↔ x ∈ t.edges) := fun x hu => by
    have hrefed : Refed (g.sites rules) places x → ∃ b ∈ g.sites rules, b.Feeds x := Refed.feeds
    have hrefed' : Refed (g'.sites rules) places' x → ∃ b ∈ g.sites rules, b.Feeds x := fun h =>
      (hfeeds x).1 h.feeds
    rw [hall, hall', hedges x hu, hedges' x hu, or_assoc, or_assoc, or_iff_right_of_imp hrefed,
      or_iff_right_of_imp hrefed']
  refine ⟨places, s, t, places', s', t', hok, hok', hrun, hrun', hedges, hedges', ?_, ?_, hagain, hagain',
    hall, hall', hsecond, fun hu x => hsecond x (hu.unshared _)⟩
  · constructor
    · exact fun heq => ⟨fun x hu => (hone x hu).1 (heq x), fun x _ => heq x⟩
    · rintro ⟨hrefed, hshared⟩ x
      by_cases hu : Unshared (g.sites rules) x.source
      · exact (hone x hu).2 (hrefed x hu)
      · exact hshared x hu
  · exact fun hu => forall_congr' fun x => hone x (hu.unshared _)

/-- The graph of a branch with its `else` part in front of the block where its parts
meet. -/
def Graph.earlyElse : Graph :=
  { Graph.ofModule .lateElse with
    blocks := [0, 1, 3, 2].filterMap fun i => (Graph.ofModule .lateElse).blocks[i]? }

theorem Graph.earlyElse_perm : Graph.earlyElse.blocks.Perm (Graph.ofModule .lateElse).blocks :=
  (((List.Perm.swap ..).cons _).cons _)

/-- The hypotheses of `edges_of_order_iff` hold of a branch whose `else` part comes
late and of the order in which it comes early. -/
theorem Graph.earlyElse_edges_of_order_iff :
    Graph.of .lateElse none = .ok (Graph.ofModule .lateElse) ∧
      Unambiguous ((Graph.ofModule .lateElse).sites .empty) ∧
      Graph.earlyElse.blocks.Perm (Graph.ofModule .lateElse).blocks ∧
      ∃ places s places' s',
        analyze ((Graph.ofModule .lateElse).sites .empty) none
          (.fresh ((Graph.ofModule .lateElse).sites .empty)) = .ok (s, ⟨places.length, false⟩) ∧
        analyze (Graph.earlyElse.sites .empty) none (.fresh (Graph.earlyElse.sites .empty))
          = .ok (s', ⟨places'.length, false⟩) ∧
        ((∀ x, x ∈ s'.edges ↔ x ∈ s.edges) ↔ ∀ x, ¬ Chain ((Graph.ofModule .lateElse).sites .empty) x →
          (Refed (Graph.earlyElse.sites .empty) places' x ↔
            Refed ((Graph.ofModule .lateElse).sites .empty) places x)) := by
  have hg : Graph.of .lateElse none = .ok (Graph.ofModule .lateElse) := rfl
  obtain ⟨places, s, t, places', s', t', hok, hok', -, -, -, -, -, hiff, -⟩ :=
    Graph.edges_of_order_iff hg .empty Graph.earlyElse_perm
  exact ⟨hg, Graph.lateElse_unambiguous, Graph.earlyElse_perm, places, s, places', s', hok, hok',
    hiff Graph.lateElse_unambiguous⟩

/-- **An edge that depends on the order.** With the `else` part in front, the block
where the parts of the branch meet is visited once, and no edge is found. With the
`else` part behind it is visited again, and what it binds at its end is led back to
the name that it reads at its top. -/
theorem Graph.earlyElse_edges_differ :
    Graph.earlyElse.blocks.Perm (Graph.ofModule .lateElse).blocks ∧
      ∃ s o s' o', analyze ((Graph.ofModule .lateElse).sites .empty) none
          (.fresh ((Graph.ofModule .lateElse).sites .empty)) = .ok (s, o) ∧
        analyze (Graph.earlyElse.sites .empty) none (.fresh (Graph.earlyElse.sites .empty)) = .ok (s', o') ∧
        s.edges = [⟨⟨6, 0, 6, 5⟩, ⟨5, 0, 5, 1⟩⟩] ∧ s'.edges = [] := by
  have hlinked : (Graph.ofModule .lateElse).Linked := Graph.ofBody_linked ..
  obtain ⟨places, s, -, hok, -⟩ := (hlinked.sites .empty).exists_finished
  obtain ⟨places', s', -, hok', -⟩ :=
    ((hlinked.of_perm Graph.earlyElse_perm).sites .empty).exists_finished
  have hlate : (analyze ((Graph.ofModule .lateElse).sites .empty) none
      (.fresh ((Graph.ofModule .lateElse).sites .empty))).toOption.map (fun r => r.1.edges) =
        some [⟨⟨6, 0, 6, 5⟩, ⟨5, 0, 5, 1⟩⟩] := by decide +kernel
  have hearly : (analyze (Graph.earlyElse.sites .empty) none
      (.fresh (Graph.earlyElse.sites .empty))).toOption.map (fun r => r.1.edges) = some [] := by
    decide +kernel
  rw [hok] at hlate
  rw [hok'] at hearly
  exact ⟨Graph.earlyElse_perm, s, _, s', _, hok, hok', by simpa [Except.toOption] using hlate,
    by simpa [Except.toOption] using hearly⟩

end Reaching
