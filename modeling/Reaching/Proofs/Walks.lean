/-
That the two walks of a tree meet the same nodes.

Depth first a node is met on the way that leads down to it, and the chain of a visit grows by
one node with each step of the way: it has the node at the end of the way, the one at the end of
the way without its last step, and so on up to the root (`Code.Node.chain_of_mem_visits`). The
ways are met in pre-order (`Code.Node.visits_ordered`), so that none is met twice.

Breadth first the nodes that are still to be met wait in a queue (`Code.Walk`): the first one is
met, and its children come to wait behind all others. Whatever the queue has come to, what is met
and the levels of the trees that wait make up the same list (`Code.Walk.Next.met_append_levels`).
Each round moves one node of these levels over to what is met, so the walk ends, with the levels
of the tree it started from (`Code.Walk.reaches_levels`).

A level has a node for each way of its length (`Code.Node.exists_ways`). So both lists of nodes
have one node for each way down, in two orders (`Code.Node.exists_ways_perm_visits`), and what is
looked for on one of the walks would be found on the other (`Code.Node.walks_agree`).

A node is known by the way down to it, since equal parts may stand in several places. Operators,
and whether a name is read or bound, are properties of the nodes that have them and no nodes.
-/
import Mathlib.Data.List.Infix
import Reaching.Proofs.Selection

namespace Reaching

open Code Relation

/-! ## Depth first -/

namespace Code.Node

variable {n root : Node} {v : Visit}

/-- The nodes on the way to a visited node, as the walk has gathered them, are those to which the
parts of the way lead. -/
theorem chain_of_mem_visitsFrom {root n : Node} {above : List Node} {p : List Nat} {v : Visit}
    (hchain : (n :: above).map some = p.tails.map root.down?) (hv : v ∈ n.visitsFrom above p) :
    v.chain.map some = v.path.tails.map root.down? := by
  rw [visitsFrom_eq, List.mem_cons, List.mem_flatMap] at hv
  rcases hv with rfl | ⟨⟨c, i⟩, hc, hv⟩
  · exact hchain
  · rw [List.mem_zipIdx_iff_getElem?] at hc
    have hchild : c ∈ n.children := List.mem_of_getElem? hc
    have hdown : root.down? p = some n := by
      cases p <;> exact (List.cons.inj hchain).1.symm
    refine chain_of_mem_visitsFrom ?_ hv
    rw [List.map_cons, hchain, List.tails_cons, List.map_cons, down?, hdown, Option.bind_some, hc]
termination_by sizeOf n
decreasing_by exact sizeOf_lt_of_mem_children hchild

/-- **The chain of a visit is the way down to it**, read from the node up to the root. -/
theorem chain_of_mem_visits (h : v ∈ n.visits) : v.chain.map some = v.path.tails.map n.down? :=
  chain_of_mem_visitsFrom rfl h

/-- No way is met twice. -/
theorem nodup_paths_visits (n : Node) : (n.visits.map Visit.path).Nodup := by
  refine List.pairwise_map.2 (n.visits_ordered.imp fun {a b} hlt heq => ?_)
  rw [heq] at hlt
  exact hlt.asymm hlt

/-- Every way that leads to a node is met. -/
theorem mem_paths_visits {p : List Nat} : p ∈ n.visits.map Visit.path ↔ (n.down? p).isSome := by
  rw [List.mem_map, Option.isSome_iff_exists]
  constructor
  · rintro ⟨v, hv, rfl⟩
    exact ⟨v.node, down?_of_mem_visits hv⟩
  · rintro ⟨m, hm⟩
    obtain ⟨v, hv, hpath, -⟩ := exists_mem_visits hm
    exact ⟨v, hv, hpath⟩

/-! ## Breadth first -/

/-- The nodes in front of a level may be taken off it, if their children are put behind it. -/
theorem levels_append (xs ys : List Node) :
    levels (xs ++ ys) = xs ++ levels (ys ++ xs.flatMap children) := by
  match hboth : xs ++ ys with
  | [] =>
    obtain ⟨rfl, rfl⟩ := List.append_eq_nil_iff.1 hboth
    rfl
  | n :: rest =>
    have hbelow := levels_append (xs.flatMap children) (ys.flatMap children)
    calc levels (n :: rest)
        = xs ++ ys ++ levels (xs.flatMap children ++ ys.flatMap children) := by
          rw [← hboth, levels_eq, List.flatMap_append]
      _ = xs ++ (ys ++ xs.flatMap children ++
            levels (ys.flatMap children ++ (xs.flatMap children).flatMap children)) := by
          rw [hbelow]
          simp only [List.append_assoc]
      _ = xs ++ levels (ys ++ xs.flatMap children) := by
          rw [levels_eq (ys ++ xs.flatMap children), List.flatMap_append]
termination_by largest (xs ++ ys)
decreasing_by
  rw [← List.flatMap_append, hboth]
  exact largest_flatMap_children_lt n rest

theorem levels_cons (n : Node) (rest : List Node) :
    levels (n :: rest) = n :: levels (rest ++ n.children) := by
  simpa using levels_append [n] rest

end Code.Node

namespace Code

/-- A walk with a queue: the nodes it has met so far, and those that wait, the next one first. -/
structure Walk where
  met : List Node
  waiting : List Node

namespace Walk

/-- One round of a walk: the first node that waits is met, and its children wait behind all others. -/
inductive Next : Walk → Walk → Prop
  | meet {met rest : List Node} {n : Node} :
      Next ⟨met, n :: rest⟩ ⟨met ++ [n], rest ++ n.children⟩

/-- **A round keeps** what is met together with the levels of what waits. -/
theorem Next.met_append_levels {w w' : Walk} (h : Next w w') :
    w'.met ++ Node.levels w'.waiting = w.met ++ Node.levels w.waiting := by
  cases h with
  | meet => rw [Node.levels_cons, List.append_assoc, List.singleton_append]

/-- So does any number of rounds. -/
theorem met_append_levels_of_reaches {w w' : Walk} (h : ReflTransGen Next w w') :
    w'.met ++ Node.levels w'.waiting = w.met ++ Node.levels w.waiting := by
  induction h with
  | refl => rfl
  | tail _ hnext ih => exact hnext.met_append_levels.trans ih

/-- **A walk ends**, and has then met the levels of what waited, too. -/
theorem reaches_levels (w : Walk) : ReflTransGen Next w ⟨w.met ++ Node.levels w.waiting, []⟩ := by
  obtain ⟨met, waiting⟩ := w
  -- each round takes one node off the levels
  induction hleft : Node.levels waiting generalizing met waiting with
  | nil =>
    cases waiting with
    | nil => rw [List.append_nil]
    | cons n rest => simp [Node.levels_cons] at hleft
  | cons m left ih =>
    cases waiting with
    | nil => simp [Node.levels] at hleft
    | cons n rest =>
      rw [Node.levels_cons, List.cons.injEq] at hleft
      obtain ⟨rfl, hleft⟩ := hleft
      have hrest := ih (met ++ [n]) (rest ++ n.children) hleft
      rw [List.append_assoc, List.singleton_append] at hrest
      exact .head .meet hrest

/-- **A walk from a root meets its nodes level by level**: whatever it has come to, it goes on and
ends with all of them. -/
theorem reaches_breadthFirst {n : Node} {w : Walk} (h : ReflTransGen Next ⟨[], [n]⟩ w) :
    ReflTransGen Next w ⟨n.breadthFirst, []⟩ := by
  have hkept : w.met ++ Node.levels w.waiting = n.breadthFirst := met_append_levels_of_reaches h
  exact hkept ▸ w.reaches_levels

end Walk

end Code

/-! ## The nodes of both walks -/

theorem LeftOf.irrefl (p : List Nat) : ¬ LeftOf p p := by
  intro h
  induction p with
  | nil => cases h
  | cons i p ih =>
    cases h with
    | turn hlt => exact Nat.lt_irrefl _ hlt
    | further h => exact ih h

theorem Sooner.irrefl (p : List Nat) : ¬ Sooner p p := by
  rintro (h | ⟨-, h⟩)
  · exact Nat.lt_irrefl _ h
  · exact LeftOf.irrefl p h

namespace Code.Node

/-- **Both walks take the same ways to the same nodes**, one of them in pre-order and the other one
the shorter ways first. -/
theorem exists_ways_perm_visits (n : Node) :
    ∃ ways : List (List Nat × Node), ways.map (·.2) = n.breadthFirst ∧
      ways.Pairwise (fun a b => Sooner a.1 b.1) ∧ (n.visits.map fun v => (v.path, v.node)).Perm ways := by
  obtain ⟨ways, hnodes, hordered, hmem⟩ := n.exists_ways
  refine ⟨ways, hnodes, hordered, (List.perm_ext_iff_of_nodup ?visits ?ways).2 ?same⟩
  case visits =>
    refine List.Nodup.of_map (·.1) ?_
    rw [List.map_map]
    exact n.nodup_paths_visits
  case ways =>
    refine hordered.imp fun {a b} hsooner heq => ?_
    rw [heq] at hsooner
    exact Sooner.irrefl _ hsooner
  case same =>
    rintro ⟨p, m⟩
    rw [hmem, List.mem_map]
    constructor
    · rintro ⟨v, hv, heq⟩
      cases heq
      exact down?_of_mem_visits hv
    · intro hm
      obtain ⟨v, hv, rfl, rfl⟩ := exists_mem_visits hm
      exact ⟨v, hv, rfl⟩

/-- Depth first and level by level a tree has the same nodes, each as often. -/
theorem map_node_visits_perm (n : Node) : (n.visits.map Visit.node).Perm n.breadthFirst := by
  obtain ⟨ways, hnodes, -, hperm⟩ := n.exists_ways_perm_visits
  rw [← hnodes]
  simpa [List.map_map, Function.comp_def] using hperm.map (·.2)

/-- What is read off the nodes of one walk is read off those of the other. -/
theorem filterMap_visits_perm {α : Type} (f : Node → Option α) (n : Node) :
    (n.visits.filterMap fun v => f v.node).Perm (n.breadthFirst.filterMap f) := by
  simpa [List.filterMap_map, Function.comp_def] using n.map_node_visits_perm.filterMap f

end Code.Node

/-- If the whole tree is marked, every name on the walk is found. -/
theorem markedNames_of_root (rules : Rules) {marks : List (List Nat)} (h : [] ∈ marks) (visits : List Visit) :
    markedNames rules marks visits =
      visits.filterMap fun v => v.node.name?.map fun r => (⟨r.1, r.2⟩ : Reference) := by
  induction visits generalizing marks with
  | nil => rfl
  | cons v rest ih =>
    have hmarked : v.isMarked marks = true := Visit.isMarked_iff.2 ⟨[], h, List.nil_suffix⟩
    rw [markedNames, ih (List.mem_append_left _ h), List.filterMap_cons]
    cases hname : v.node.name? with
    | none => rfl
    | some name => simp [hmarked]

/-- **The two walks of a tree agree.** Depth first each node is met once: the ways on which the walk
goes are those that lead to a node, and none is taken twice. They are taken in pre-order. A visit is
of the node to which its way leads, and its chain has the nodes on the way, from this one up to the
root. Breadth first, whatever the queue has come to, the walk goes on and ends with the nodes level
by level, and these are the nodes of the other walk, each as often. So the names that a mark on the
whole tree lets the depth-first walk find are those gathered level by level, and the literals that
are looked for in a statement are those on the depth-first walk. -/
theorem Code.Node.walks_agree (n : Node) :
    ((n.visits.map Visit.path).Nodup ∧ ∀ p, p ∈ n.visits.map Visit.path ↔ (n.down? p).isSome) ∧
      (n.visits.Pairwise fun a b => Earlier a.path b.path) ∧
      (∀ v ∈ n.visits, n.down? v.path = some v.node ∧ v.chain.map some = v.path.tails.map n.down?) ∧
      (∀ w, ReflTransGen Walk.Next ⟨[], [n]⟩ w → ReflTransGen Walk.Next w ⟨n.breadthFirst, []⟩) ∧
      (n.visits.map Visit.node).Perm n.breadthFirst ∧
      (∀ rules, (markedNames rules [[]] n.visits).Perm n.names) ∧
      ∀ s, n = .stmt s → (n.visits.filterMap fun v => v.node.literal?).Perm s.literals := by
  refine ⟨⟨n.nodup_paths_visits, fun p => mem_paths_visits⟩, n.visits_ordered, fun v hv => ?chain,
    fun w hw => Walk.reaches_breadthFirst hw, n.map_node_visits_perm, fun rules => ?names, ?literals⟩
  case chain => exact ⟨down?_of_mem_visits hv, chain_of_mem_visits hv⟩
  case names =>
    rw [markedNames_of_root rules (List.mem_singleton_self [])]
    exact n.filterMap_visits_perm fun m => m.name?.map fun r => (⟨r.1, r.2⟩ : Reference)
  case literals =>
    rintro s rfl
    exact (Node.stmt s).filterMap_visits_perm Node.literal?

/-- The order is not the same: in `f(x)(y)` the last argument is nearer to the root than the others. -/
example :
    let letter (id : String) (column : Int) : Expr := .at ⟨1, column, 1, column + 1⟩ (.name id)
    let call : Expr := .at ⟨1, 0, 1, 4⟩ (.call (letter "f" 0) [letter "x" 2] [])
    let tree : Node := .expr (.at ⟨1, 0, 1, 7⟩ (.call call [letter "y" 5] []))
    (markedNames .default [[]] tree.visits).map (·.name) = ["f", "x", "y"] ∧
      tree.names.map (·.name) = ["y", "f", "x"] := by
  decide +kernel

end Reaching
