/-
Which of several functions with one name is analyzed.

The nodes of a tree are listed level by level. A level is described by the ways that lead
down to its nodes: all ways of one length, from left to right (`Code.Node.IsLevel`). The
children of its nodes, taken in turn, are the level below it (`Code.Node.IsLevel.below`),
and from this it follows, level by level, that the list has each node once for each way
to it, and that of two ways the shorter one comes first, or the one further to the left
(`Code.Node.exists_ways`). So the first function in the list that has a name is the one
nearest to the root, and the first in the order of children among those as near
(`Graph.of_function_selects`).
-/
import Reaching.Proofs.Mutations
import Reaching.Proofs.Placement

namespace Reaching

open Code

/-! ## The order of ways down -/

/-- Of two ways down of one length the first one leads to a node further to the left: of two
children of one node the one that is earlier, and what is below a node is where the node is. -/
inductive LeftOf : List Nat → List Nat → Prop
  | turn {i j : Nat} {p : List Nat} : i < j → LeftOf (i :: p) (j :: p)
  | further {i j : Nat} {p q : List Nat} : LeftOf p q → LeftOf (i :: p) (j :: q)

/-- Of two ways down the first one leads to a node of a level above, or of the same level and
further to the left. -/
def Sooner (p q : List Nat) : Prop := p.length < q.length ∨ p.length = q.length ∧ LeftOf p q

namespace Code.Node

/-! ## Levels -/

variable {root n : Node} {depth : Nat} {ways : List (List Nat × Node)}

/-- The children of some nodes, each with the way to it. -/
def stepDown (ways : List (List Nat × Node)) : List (List Nat × Node) :=
  ways.flatMap fun (p, n) => n.children.zipIdx.map fun (c, i) => (i :: p, c)

theorem map_snd_stepDown (ways : List (List Nat × Node)) :
    (stepDown ways).map (·.2) = (ways.map (·.2)).flatMap children := by
  rw [stepDown, List.map_flatMap, List.flatMap_map]
  refine List.flatMap_congr fun w _ => ?_
  simp [List.map_map, Function.comp_def]

theorem mem_stepDown {p : List Nat} {c : Node} :
    (p, c) ∈ stepDown ways ↔
      ∃ i q n, p = i :: q ∧ (q, n) ∈ ways ∧ n.children[i]? = some c := by
  simp only [stepDown, List.mem_flatMap, List.mem_map, Prod.exists, List.mem_zipIdx_iff_getElem?,
    Prod.mk.injEq]
  constructor
  · rintro ⟨q, n, hn, d, i, hi, rfl, rfl⟩
    exact ⟨i, q, n, rfl, hn, hi⟩
  · rintro ⟨i, q, n, rfl, hn, hi⟩
    exact ⟨q, n, hn, c, i, hi, rfl, rfl⟩

/-- The ways of some length to the nodes of a tree, from left to right. -/
structure IsLevel (root : Node) (depth : Nat) (ways : List (List Nat × Node)) : Prop where
  mem_iff : ∀ p n, (p, n) ∈ ways ↔ p.length = depth ∧ root.down? p = some n
  ordered : ways.Pairwise fun a b => LeftOf a.1 b.1

theorem isLevel_root (root : Node) : root.IsLevel 0 [([], root)] where
  mem_iff := by
    intro p n
    rw [List.mem_singleton, List.length_eq_zero_iff, Prod.mk.injEq]
    refine and_congr_right fun hp => ?_
    subst hp
    exact ⟨fun h => h ▸ rfl, fun h => (Option.some.inj h).symm⟩
  ordered := List.pairwise_singleton ..

/-- **The children of a level are the level below it.** -/
theorem IsLevel.below (h : root.IsLevel depth ways) : root.IsLevel (depth + 1) (stepDown ways) where
  mem_iff := by
    intro p c
    rw [mem_stepDown]
    constructor
    · rintro ⟨i, q, n, rfl, hn, hi⟩
      obtain ⟨hlength, hq⟩ := (h.mem_iff q n).1 hn
      exact ⟨by simp [hlength], by rw [down?, hq]; exact hi⟩
    · rintro ⟨hlength, hp⟩
      obtain ⟨i, q, rfl⟩ := List.exists_cons_of_length_eq_add_one hlength
      obtain ⟨n, hq, hi⟩ := Option.bind_eq_some_iff.1 hp
      exact ⟨i, q, n, rfl, (h.mem_iff q n).2 ⟨Nat.succ.inj hlength, hq⟩, hi⟩
  ordered := by
    rw [stepDown, List.pairwise_flatMap]
    constructor
    · rintro ⟨p, n⟩ -
      exact List.pairwise_map.2 ((pairwise_zipIdx n.children).imp fun hlt => .turn hlt)
    · refine h.ordered.imp fun {a b} hleft x hx y hy => ?_
      obtain ⟨⟨c, i⟩, -, rfl⟩ := List.mem_map.1 hx
      obtain ⟨⟨d, j⟩, -, rfl⟩ := List.mem_map.1 hy
      exact .further hleft

/-- Below a level without nodes there are none. -/
theorem IsLevel.length_lt (h : root.IsLevel depth []) {p : List Nat} (hp : root.down? p = some n) :
    p.length < depth := by
  induction p generalizing n with
  | nil =>
    refine Nat.pos_of_ne_zero fun hdepth => ?_
    exact List.not_mem_nil ((h.mem_iff [] n).2 ⟨hdepth.symm, hp⟩)
  | cons i p ih =>
    obtain ⟨a, ha, -⟩ := Option.bind_eq_some_iff.1 hp
    have hlt := ih ha
    refine Nat.lt_of_le_of_ne hlt fun hdepth => ?_
    exact List.not_mem_nil ((h.mem_iff (i :: p) n).2 ⟨hdepth, hp⟩)

/-- From a level on a tree has a node for each way down, in the order of the levels. -/
theorem IsLevel.exists_ways {root : Node} {depth : Nat} {ways : List (List Nat × Node)}
    (h : root.IsLevel depth ways) :
    ∃ all : List (List Nat × Node), all.map (·.2) = levels (ways.map (·.2)) ∧
      all.Pairwise (fun a b => Sooner a.1 b.1) ∧
      ∀ p n, (p, n) ∈ all ↔ depth ≤ p.length ∧ root.down? p = some n := by
  match hways : ways with
  | [] =>
    refine ⟨[], by simp [levels], .nil, fun p n => ?_⟩
    simp only [List.not_mem_nil, false_iff, not_and]
    exact fun hdepth hp => absurd (h.length_lt hp) (Nat.not_lt.2 hdepth)
  | w :: rest =>
    obtain ⟨all, hnodes, hordered, hmem⟩ := h.below.exists_ways
    refine ⟨w :: rest ++ all, ?nodes, ?ordered, ?mem⟩
    case nodes => rw [List.map_append, hnodes, map_snd_stepDown, ← levels_eq]
    case ordered =>
      refine List.pairwise_append.2 ⟨?_, hordered, fun a ha b hb => .inl ?_⟩
      · refine h.ordered.imp_of_mem fun {a b} ha hb hleft => .inr ⟨?_, hleft⟩
        exact ((h.mem_iff a.1 a.2).1 ha).1.trans ((h.mem_iff b.1 b.2).1 hb).1.symm
      · have := ((h.mem_iff a.1 a.2).1 ha).1
        have := ((hmem b.1 b.2).1 hb).1
        omega
    case mem =>
      intro p n
      rw [List.mem_append, h.mem_iff, hmem, ← or_and_right]
      exact and_congr_left' (by omega)
termination_by largest (ways.map (·.2))
decreasing_by
  subst hways
  rw [map_snd_stepDown, List.map_cons]
  exact largest_flatMap_children_lt ..

/-- **Level by level a tree has a node for each way down**, those of shorter ways first, and of
ways of one length those further to the left. -/
theorem exists_ways (root : Node) :
    ∃ ways : List (List Nat × Node), ways.map (·.2) = root.breadthFirst ∧
      ways.Pairwise (fun a b => Sooner a.1 b.1) ∧ ∀ p n, (p, n) ∈ ways ↔ root.down? p = some n := by
  obtain ⟨ways, hnodes, hordered, hmem⟩ := root.isLevel_root.exists_ways
  exact ⟨ways, hnodes, hordered, fun p n => (hmem p n).trans (and_iff_right (Nat.zero_le _))⟩

end Code.Node

/-! ## Functions -/

/-- A statement is the definition of a function with a name. -/
def Code.Stmt.IsFunction (name : String) (s : Stmt) : Prop :=
  ∃ span isAsync ps body decorators returns,
    s = .at span (.function isAsync name ps body decorators returns)

theorem Code.Node.function?_eq_some_iff {name : String} {n : Node} {s : Stmt} :
    n.function? name = some s ↔ n = .stmt s ∧ s.IsFunction name := by
  constructor
  · intro h
    unfold function? at h
    split at h
    · rename_i t
      obtain ⟨span, form⟩ := t
      cases form <;> simp only [Stmt.form, reduceCtorEq] at h
      split at h
      · rename_i hname
        obtain rfl := Option.some.inj h
        exact ⟨rfl, span, _, _, _, _, _, by rw [hname]⟩
      · cases h
    · cases h
  · rintro ⟨rfl, span, isAsync, ps, body, decorators, returns, rfl⟩
    simp [function?]

/-- The function of a name that is laid out: the way down to it is one of the shortest to functions
of this name, and leads further to the left than the other ones of these. -/
structure Code.Module.Selects (m : Module) (name : String) (p : List Nat) (s : Stmt) : Prop where
  leads : (Node.module m).down? p = some (.stmt s)
  named : s.IsFunction name
  least : ∀ q t, (Node.module m).down? q = some (.stmt t) → t.IsFunction name → p.length ≤ q.length
  first : ∀ q t, (Node.module m).down? q = some (.stmt t) → t.IsFunction name →
    q.length = p.length → q = p ∨ LeftOf p q

/-- The search level by level finds the function that is selected. -/
theorem Code.Module.exists_selects {m : Module} {name : String} {s : Stmt}
    (h : (Node.module m).breadthFirst.findSome? (Node.function? name) = some s) :
    ∃ p, m.Selects name p s := by
  obtain ⟨ways, hnodes, hordered, hmem⟩ := (Node.module m).exists_ways
  rw [← hnodes, List.findSome?_map, List.findSome?_eq_some_iff] at h
  obtain ⟨before, ⟨p, n⟩, after, rfl, hfound, hbefore⟩ := h
  obtain ⟨rfl, hnamed⟩ := Node.function?_eq_some_iff.1 hfound
  -- any other way to a function of the name comes later in the list
  have hlater : ∀ q t, (Node.module m).down? q = some (.stmt t) → t.IsFunction name →
      q = p ∨ Sooner p q := by
    intro q t hq ht
    rcases List.mem_append.1 ((hmem q (.stmt t)).2 hq) with hin | hin
    · have hnone := hbefore _ hin
      rw [Function.comp_apply, Node.function?_eq_some_iff.2 ⟨rfl, ht⟩] at hnone
      cases hnone
    · rcases List.mem_cons.1 hin with heq | hin
      · exact .inl (Prod.mk.inj heq).1
      · exact .inr ((List.pairwise_cons.1 (List.pairwise_append.1 hordered).2.1).1 _ hin)
  exact ⟨p, {
    leads := (hmem p _).1 (by simp)
    named := hnamed
    least := fun q t hq ht => by
      rcases hlater q t hq ht with rfl | hlt | ⟨heq, -⟩ <;> omega
    first := fun q t hq ht hlength =>
      (hlater q t hq ht).imp_right fun hsooner => hsooner.elim (by omega) And.right }⟩

/-- The search finds nothing if no function in the tree has the name. -/
theorem Code.Module.findSome?_function_eq_none_iff {m : Module} {name : String} :
    (Node.module m).breadthFirst.findSome? (Node.function? name) = none ↔
      ∀ s, (Node.module m).Under (.stmt s) → ¬ s.IsFunction name := by
  rw [List.findSome?_eq_none_iff]
  constructor
  · intro h s hs hnamed
    have hnone := h _ (Node.mem_breadthFirst_iff.2 hs)
    rw [Node.function?_eq_some_iff.2 ⟨rfl, hnamed⟩] at hnone
    cases hnone
  · intro h n hn
    refine Option.eq_none_iff_forall_ne_some.2 fun s hs => ?_
    obtain ⟨rfl, hnamed⟩ := Node.function?_eq_some_iff.1 hs
    exact h s (Node.mem_breadthFirst_iff.1 hn) hnamed

/-! ## Graphs of functions -/

/-- A function's graph has of its parameters only their names and spans, and of its decorators and
the hint for its result nothing. -/
theorem Graph.ofFunction?_congr {span : Span} {name : String} {ps ps' : Parameters} {body : List Stmt}
    (h : ps'.inOrder.map (fun p => (p.name, p.span)) = ps.inOrder.map fun p => (p.name, p.span))
    (isAsync isAsync' : Bool) (decorators decorators' : List Expr) (returns returns' : Option Expr) :
    Graph.ofFunction? (.at span (.function isAsync' name ps' body decorators' returns')) =
      Graph.ofFunction? (.at span (.function isAsync name ps body decorators returns)) := by
  have hbindings : ps'.inOrder.map parameterBinding = ps.inOrder.map parameterBinding := by
    have hpair : parameterBinding = (fun w : String × Span =>
        Stmt.at w.2 (.assign [.at w.2 (.name w.1)] (.at w.2 (.constant .nothing)))) ∘
          fun p => (p.name, p.span) := rfl
    rw [hpair, ← List.map_map, ← List.map_map, h]
  simp [Graph.ofFunction?, hbindings]

/-- **Which function is laid out, and what of it.** For a name there is no graph just when no
statement of the module, however deep, is a function of that name, and the error names it. If one
is, the graph is that of the function of this name which is nearest to the root, and further to the
left than the others as near. Its blocks hold the bindings of the parameters, in the order of the
signature and at the top of the entry, and the pieces of the body. It does not depend on
anything else: with any decorators, defaults and hints the graph is the same. -/
theorem Graph.of_function_selects (m : Module) (name : String) :
    ((∃ e, Graph.of m (some name) = .error e) ↔
      ∀ s, (Node.module m).Under (.stmt s) → ¬ s.IsFunction name) ∧
    (∀ e, Graph.of m (some name) = .error e →
      e.message = "Function '" ++ name ++ "' not found in source") ∧
    ∀ t, (Node.module m).Under (.stmt t) → t.IsFunction name →
      ∃ p span isAsync ps body decorators returns,
        m.Selects name p (.at span (.function isAsync name ps body decorators returns)) ∧
        ∃ g, Graph.of m (some name) = .ok g ∧ g.name = name ∧
          g.HoldsBody (ps.inOrder.map parameterBinding) body ∧
          ∀ isAsync' ps' decorators' returns',
            ps'.inOrder.map (fun q => (q.name, q.span)) = ps.inOrder.map (fun q => (q.name, q.span)) →
            Graph.ofFunction? (.at span (.function isAsync' name ps' body decorators' returns')) = some g := by
  have hnone : (Node.module m).breadthFirst.findSome? (Node.function? name) = none ↔ _ :=
    Module.findSome?_function_eq_none_iff
  cases hfound : (Node.module m).breadthFirst.findSome? (Node.function? name) with
  | none =>
    have hof : Graph.of m (some name) = .error ⟨name⟩ := by simp [Graph.of, hfound]
    refine ⟨⟨fun _ => hnone.1 hfound, fun _ => ⟨_, hof⟩⟩, ?_, ?_⟩
    · rintro e he
      obtain rfl : (⟨name⟩ : FunctionNotFound) = e := Except.error.inj (hof.symm.trans he)
      rfl
    · exact fun t ht hnamed => absurd hnamed (hnone.1 hfound t ht)
  | some s =>
    obtain ⟨p, hselects⟩ := Module.exists_selects hfound
    obtain ⟨span, isAsync, ps, body, decorators, returns, rfl⟩ := hselects.named
    have hof : Graph.of m (some name) =
        .ok (Graph.ofBody name span.firstLine (ps.inOrder.map parameterBinding) body) := by
      simp [Graph.of, hfound, Graph.ofFunction?]
    refine ⟨⟨?_, fun hlacks => ?_⟩, ?_, fun _ _ _ => ?_⟩
    · rintro ⟨e, he⟩
      cases hof.symm.trans he
    · cases hfound.symm.trans (hnone.2 hlacks)
    · intro e he
      cases hof.symm.trans he
    · exact ⟨p, span, isAsync, ps, body, decorators, returns, hselects, _, hof, rfl,
        Graph.ofBody_holdsBody .., fun isAsync' ps' decorators' returns' h =>
          Graph.ofFunction?_congr h isAsync isAsync' decorators decorators' returns returns'⟩

/-- A method of a class. -/
def Code.Stmt.method : Stmt :=
  .at ⟨2, 4, 3, 12⟩ (.function false "f" .none [.at ⟨3, 8, 3, 12⟩ .pass] [] none)

/-- A function of the same name with a parameter and a decorator. -/
def Code.Stmt.namesake : Stmt :=
  .at ⟨5, 0, 6, 8⟩ (.function false "f" (.of [] [.at ⟨5, 6, 5, 7⟩ "a" none none] none [] none)
    [.at ⟨6, 4, 6, 8⟩ .pass] [.at ⟨4, 1, 4, 2⟩ (.name "d")] none)

/-- The function comes after the class. -/
def Code.Module.overshadowed : Module :=
  ⟨[.at ⟨1, 0, 3, 12⟩ (.classDef "A" [] [] [.method] []), .namesake]⟩

/-- The last part of `of_function_selects` at a module with two functions of one name. The one that
comes later in the source is nearer to the root, and is laid out. -/
theorem Code.Module.overshadowed_selects :
    (Node.module overshadowed).Under (.stmt .method) ∧ Stmt.method.IsFunction "f" ∧
      ∃ g, Graph.of overshadowed (some "f") = .ok g ∧
        g.HoldsBody [parameterBinding (.at ⟨5, 6, 5, 7⟩ "a" none none)] [.at ⟨6, 4, 6, 8⟩ .pass] := by
  have hmethod : (Node.module overshadowed).Under (.stmt .method) :=
    Node.under_iff_down?.2 ⟨[0, 0], rfl⟩
  have hmethodNamed : Stmt.method.IsFunction "f" := ⟨_, _, _, _, _, _, rfl⟩
  have hnamesake : (Node.module overshadowed).down? [1] = some (.stmt .namesake) := rfl
  obtain ⟨p, span, isAsync, ps, body, decorators, returns, hselects, g, hok, -, hholds, -⟩ :=
    (Graph.of_function_selects overshadowed "f").2.2 _ hmethod hmethodNamed
  have hnamed : Stmt.namesake.IsFunction "f" := ⟨_, _, _, _, _, _, rfl⟩
  have hlength : p.length = 1 := by
    refine Nat.le_antisymm (hselects.least [1] _ hnamesake hnamed) (List.length_pos_iff.2 ?_)
    rintro rfl
    cases hselects.leads
  have hfirst : [1] = p := by
    refine (hselects.first [1] _ hnamesake hnamed hlength.symm).resolve_right fun hleft => ?_
    cases hleft with
    | turn hlt =>
      obtain rfl := Nat.lt_one_iff.1 hlt
      cases hselects.leads
    | further hleft => cases hleft
  subst hfirst
  cases hnamesake.symm.trans hselects.leads
  exact ⟨hmethod, hmethodNamed, g, hok, hholds⟩

end Reaching
