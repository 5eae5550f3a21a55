/-
The paths of a graph are the runs of its body.

A path from the entry of a graph to one of its exits reads the statements of the
blocks on it. What the paths of the graph of a body read are just the finite runs
of the body, behind the bindings on entry (`Graph.ofBody_paths_iff_runs`).
-/
import Reaching.Proofs.Attempts

namespace Reaching

open Code Fragment

/-- A path of links from the top of a block to the end of a block, with the
statements that are read on it. -/
inductive Graph.Path (g : Graph) : BlockId → List (Option Stmt) → BlockId → Prop
  | stop {b : Block} : b ∈ g.blocks → g.Path b.id b.statements b.id
  | link {b : Block} {j c : BlockId} {w : List (Option Stmt)} : b ∈ g.blocks → j ∈ b.succs →
      g.Path j w c → g.Path b.id (b.statements ++ w) c

/-! ## Paths of a whole layout -/

namespace Fragment

variable {F : Fragment} {name : String} {last a c : BlockId}

/-- The exits of a whole layout are the blocks where the body is left, its last
block among them. -/
theorem mem_exits : a ∈ (F.toGraph name last).exits ↔ a ∈ (F ++ returnsFrom last).returns := by
  simp [toGraph]

/-- What a path to an exit reads is read from the layout. -/
theorem readsFrom_of_path {w : List (Option Stmt)} (h : (F.toGraph name last).Path a w c)
    (hc : c ∈ (F.toGraph name last).exits) :
    ∃ u, w = u.map some ∧ (F ++ returnsFrom last).ReadsFrom a u := by
  have hstatements : ∀ a, (F ++ returnsFrom last).statementsOf a = F.statementsOf a := by simp
  induction h with
  | stop hb =>
    obtain ⟨i, o, -, rfl⟩ := mem_blocks.1 hb
    refine ⟨F.statementsOf i, rfl, readsFrom_iff.2 ⟨[], ?_, .leave (mem_exits.1 hc)⟩⟩
    rw [hstatements, List.append_nil]
    rfl
  | @link b j _ _ hb hj _ ih =>
    obtain ⟨i, o, -, rfl⟩ := mem_blocks.1 hb
    obtain ⟨u, rfl, hu⟩ := ih hc
    have hleads : (F ++ returnsFrom last).Leads i j := leads_append.2 (.inl (mem_successors.1 hj))
    refine ⟨F.statementsOf i ++ u, (List.map_append ..).symm, readsFrom_iff.2 ⟨u, ?_, .pass hleads hu⟩⟩
    rw [hstatements]
    rfl

/-- A path can end at a block of the layout. -/
theorem path_stop (ha : 0 ≤ a ∧ a < F.next 0) :
    (F.toGraph name last).Path a ((F.statementsOf a).map some) a := by
  obtain ⟨b, hb, rfl⟩ := exists_block name last ha
  obtain ⟨i, o, ho, rfl⟩ := mem_blocks.1 hb
  exact .stop hb

/-- A path can begin at a block that leads to its first one. -/
theorem path_link {j : BlockId} {w : List (Option Stmt)} (ha : 0 ≤ a ∧ a < F.next 0)
    (hleads : F.Leads a j) (h : (F.toGraph name last).Path j w c) :
    (F.toGraph name last).Path a ((F.statementsOf a).map some ++ w) c := by
  obtain ⟨b, hb, rfl⟩ := exists_block name last ha
  obtain ⟨i, o, ho, rfl⟩ := mem_blocks.1 hb
  exact .link hb (mem_successors.2 hleads) h

/-- Where the transfers of a layout join its own blocks, what is read from a block
is read on a path to an exit. -/
theorem path_of_reads (hin : ∀ a b, F.Leads a b → 0 ≤ b ∧ b < F.next 0) {rest u : List Stmt}
    (h : (F ++ returnsFrom last).Reads a rest u) (ha : 0 ≤ a ∧ a < F.next 0) :
    ∃ v, u = rest ++ v ∧ ∃ c ∈ (F.toGraph name last).exits,
      (F.toGraph name last).Path a ((F.statementsOf a ++ v).map some) c := by
  induction h with
  | @leave a h =>
    refine ⟨[], rfl, a, mem_exits.2 h, ?_⟩
    rw [List.append_nil]
    exact path_stop ha
  | @pass a j u h _ ih =>
    have hleads : F.Leads a j := by simpa using h
    obtain ⟨v, rfl, c, hc, hpath⟩ := ih (hin a j hleads)
    rw [statementsOf_append, statementsOf_returnsFrom, List.append_nil]
    refine ⟨F.statementsOf j ++ v, rfl, c, hc, ?_⟩
    rw [List.map_append]
    exact path_link ha hleads hpath
  | read _ ih =>
    obtain ⟨v, rfl, hpath⟩ := ih ha
    exact ⟨v, rfl, hpath⟩

/-- **The paths to an exit are what is read from the layout.** -/
theorem path_iff_readsFrom (hin : ∀ a b, F.Leads a b → 0 ≤ b ∧ b < F.next 0)
    (ha : 0 ≤ a ∧ a < F.next 0) {w : List (Option Stmt)} :
    (∃ c ∈ (F.toGraph name last).exits, (F.toGraph name last).Path a w c) ↔
      ∃ u, w = u.map some ∧ (F ++ returnsFrom last).ReadsFrom a u := by
  constructor
  · rintro ⟨c, hc, hpath⟩
    exact readsFrom_of_path hpath hc
  · rintro ⟨u, rfl, hread⟩
    obtain ⟨v, rfl, c, hc, hpath⟩ := path_of_reads hin hread ha
    rw [statementsOf_append, statementsOf_returnsFrom, List.append_nil]
    exact ⟨c, hc, hpath⟩

end Fragment

/-! ## Paths of the graph of a body -/

/-- After a run of a body nothing more is read where it falls off its end and
where it returns, and it ends in no other way. -/
theorem onward_end {F : Fragment} {last : BlockId} (hreturns : last ∈ F.returns)
    (hleads : ∀ b, ¬ F.Leads last b) (e : Ending) (w : List Stmt) :
    onward F none last [] e w ↔ w = [] ∧ (e = .falls ∨ e = .returns) := by
  cases e with
  | falls => simp [onward, reads_nil, hreturns, hleads]
  | _ => simp [onward]

theorem then_end {runs : List Stmt → Ending → Prop} {w : List Stmt} :
    Then runs (fun e v => v = [] ∧ (e = .falls ∨ e = .returns)) w ↔ runs w .falls ∨ runs w .returns := by
  constructor
  · rintro ⟨u, v, e, rfl, hrun, rfl, rfl | rfl⟩
    · exact .inl (by rwa [List.append_nil])
    · exact .inr (by rwa [List.append_nil])
  · rintro (hrun | hrun)
    · exact ⟨w, [], _, (List.append_nil w).symm, hrun, rfl, .inl rfl⟩
    · exact ⟨w, [], _, (List.append_nil w).symm, hrun, rfl, .inr rfl⟩

/-- A whole layout is read as the bindings on entry and then as a run of its body. -/
theorem readsFrom_entry {f : Fragment} {last : BlockId} (line : Int) (bindings : List Stmt)
    {runs : List Stmt → Ending → Prop} {w : List Stmt} (hlies : Lies none 0 1 (f, last))
    (hfaithful : Faithful none 0 1 (f, last) runs) :
    ((opens .entry line).placing 0 bindings ++ f ++ returnsFrom last).ReadsFrom 0 w ↔
      ∃ u, (runs u .falls ∨ runs u .returns) ∧ w = bindings ++ u := by
  obtain ⟨-, hlast, hopen⟩ := hlies
  dsimp only at hlast hopen
  have hE : Embeds ((opens .entry line).placing 0 bindings ++ f ++ returnsFrom last) 0 1 (f, last) [] := by
    refine ⟨fun a h1 h2 hne => ?_, fun hne => ?_, fun hne => ?_⟩
    · have h0 : (0 : BlockId) ≠ a := by lia
      simp [SameAt, statementsOf_placing, h0, hne]
    · simp [hne.symm]
    · simp [statementsOf_placing, hne.symm]
  have hend : ∀ e v, onward ((opens .entry line).placing 0 bindings ++ f ++ returnsFrom last) none
      last [] e v ↔ v = [] ∧ (e = .falls ∨ e = .returns) := by
    refine onward_end (by simp) fun b => ?_
    have hno : ¬ f.Leads last b := fun h => hopen h.leaves
    simp [hno]
  have hread := fun v => (hfaithful _ [] v hE).trans ((then_congr fun e u _ => hend e u).trans then_end)
  simp only [ite_self, List.append_nil] at hread
  simp only [ReadsFrom, statementsOf_append, statementsOf_placing, statementsOf_opens,
    statementsOf_returnsFrom, if_true, List.nil_append, List.append_nil, reads_append, hread]
  exact exists_congr fun v => and_comm

/-- **The paths of the graph of a body are its runs**: for a body without `try`
that jumps only inside of loops, what is read on the paths from the entry to an
exit are the finite runs of the body, behind the bindings on entry. -/
theorem Graph.ofBody_paths_iff_runs (name : String) (line : Int) (bindings : List Stmt)
    {body : List Stmt} (h : allStructured false body = true) (w : List (Option Stmt)) :
    (∃ c ∈ (Graph.ofBody name line bindings body).exits,
      (Graph.ofBody name line bindings body).Path (Graph.ofBody name line bindings body).entry w c) ↔
        ∃ u, Finishes body u ∧ w = (bindings ++ u).map some := by
  have hlies := layOutAll_lies none body 0 1 (by decide)
  have hfaithful := layOutAll_faithful none body h 0 1 (by decide)
  cases hf : layOutAll none 0 1 body with
  | mk f last =>
    rw [hf] at hlies hfaithful
    have hzero : (0 : BlockId) ≤ 0 ∧ 0 < ((opens .entry line).placing 0 bindings ++ f).next 0 := by
      have hfn := f.le_next 1
      simp only [next_append, next_placing, next_opens]
      grind
    rw [Graph.ofBody_eq name line bindings hf]
    refine (path_iff_readsFrom (fun a b hab => (hlies.leads_inside line bindings hab).2) hzero).trans ?_
    simp only [readsFrom_entry line bindings hlies hfaithful]
    constructor
    · rintro ⟨-, rfl, u, hu, rfl⟩
      exact ⟨u, hu, rfl⟩
    · rintro ⟨u, hu, rfl⟩
      exact ⟨_, rfl, u, hu, rfl⟩

/-- A loop with an `else` part, that asks for `y` and then looks at `z` in every
turn:

    while x:
        if y:
            break
        z
    else:
        return
-/
def searchLoop : List Stmt :=
  let name (line column : Int) (id : String) : Expr :=
    .at ⟨line, column, line, column + 1⟩ (.name id)
  [.at ⟨1, 0, 6, 10⟩ (.whileLoop (name 1 6 "x")
    [.at ⟨2, 4, 3, 13⟩ (.ifElse (name 2 7 "y") [.at ⟨3, 8, 3, 13⟩ .breakLoop] []),
      .at ⟨4, 4, 4, 5⟩ (.expr (name 4 4 "z"))]
    [.at ⟨6, 4, 6, 10⟩ (.ret none)])]

/-- One turn of the loop, and its `else` part. -/
def searchRun : List Stmt :=
  let name (line column : Int) (id : String) : Stmt :=
    .at ⟨line, column, line, column + 1⟩ (.expr (.at ⟨line, column, line, column + 1⟩ (.name id)))
  [name 1 6 "x", name 2 7 "y", name 4 4 "z", name 1 6 "x", .at ⟨6, 4, 6, 10⟩ (.ret none)]

theorem searchLoop_finishes : Finishes searchLoop searchRun := by
  have hturn {span : Span} {test : Expr} {body : List Stmt} {s : Stmt} (hs : s.isSimple = true) :
      ExecAll [.at span (.ifElse test body []), s] [testHeader test, s] .falls :=
    .next (.ifFalse .nil) (.next (.simple hs) .nil)
  have hleave : ExecAll [.at ⟨6, 4, 6, 10⟩ (.ret none)] [.at ⟨6, 4, 6, 10⟩ (.ret none)] .returns :=
    .leave .ret (by decide)
  refine .inr (.leave (.whileLoop ?_) (by decide))
  exact .again (hturn (by decide)) (.inl rfl) (.ends hleave)

theorem Graph.searchLoop_path :
    allStructured false searchLoop = true ∧
      ∃ c ∈ (Graph.ofBody "f" 1 [] searchLoop).exits,
        (Graph.ofBody "f" 1 [] searchLoop).Path (Graph.ofBody "f" 1 [] searchLoop).entry
          (searchRun.map some) c := by
  have hstructured : allStructured false searchLoop = true := by decide
  exact ⟨hstructured, (Graph.ofBody_paths_iff_runs "f" 1 [] hstructured _).2
    ⟨searchRun, searchLoop_finishes, rfl⟩⟩

end Reaching
