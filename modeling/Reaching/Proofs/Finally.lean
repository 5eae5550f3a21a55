/-
What is read on the paths of the graph of a body with `try` statements.

The paths from the entry to an exit are read as the body is run when a handler may be run
instead of the body of its statement or behind it, and jumps pass `finally` parts by
(`Graph.ofBody_paths_iff_linked`). So a run without exceptions is on a path as far as no jump
passes a `finally` part that does something (`Graph.merged_run_path`).
-/
import Reaching.Proofs.Paths

namespace Reaching

open Code Fragment Course

/-- **What is read on the paths of any body**: from the entry to an exit just the bindings on
entry and then a finite run of the body, in which a handler may be run instead of the body of
its `try` statement or behind it, and jumps pass `finally` parts by. -/
theorem Graph.ofBody_paths_iff_linked (name : String) (line : Int) (bindings body : List Stmt)
    (w : List (Option Stmt)) :
    (∃ c ∈ (Graph.ofBody name line bindings body).exits,
      (Graph.ofBody name line bindings body).Path (Graph.ofBody name line bindings body).entry w c) ↔
        ∃ u, FinishesBy linked body u ∧ w = (bindings ++ u).map some := by
  have hlies := layOutAll_lies none body 0 1 (by decide)
  have hlinked := layOutAll_linked none body 0 1 (by decide)
  cases hf : layOutAll none 0 1 body with
  | mk f last =>
    rw [hf] at hlies hlinked
    have hzero : (0 : BlockId) ≤ 0 ∧ 0 < ((opens .entry line).placing 0 bindings ++ f).next 0 := by
      have hfn := f.le_next 1
      simp only [next_append, next_placing, next_opens]
      exact ⟨Int.le_refl 0, by lia⟩
    rw [Graph.ofBody_eq name line bindings hf]
    refine (path_iff_readsFrom (fun a b hab => (hlies.leads_inside line bindings hab).2) hzero).trans ?_
    simp only [readsFrom_entry line bindings hlies hlinked]
    constructor
    · rintro ⟨-, rfl, u, hu, rfl⟩
      exact ⟨u, hu, rfl⟩
    · rintro ⟨u, hu, rfl⟩
      exact ⟨_, rfl, u, hu, rfl⟩

/-- **Runs in which no jump passes a `finally` part that does something** are runs without
exceptions, and each of them is read on a path from the entry to an exit. -/
theorem Graph.merged_run_path (name : String) (line : Int) (bindings : List Stmt) {body u : List Stmt}
    (h : FinishesBy merged body u) :
    FinishesBy quiet body u ∧
      ∃ c ∈ (Graph.ofBody name line bindings body).exits,
        (Graph.ofBody name line bindings body).Path (Graph.ofBody name line bindings body).entry
          ((bindings ++ u).map some) c :=
  ⟨h.mono merged_within_quiet, (Graph.ofBody_paths_iff_linked name line bindings body _).2
    ⟨u, h.mono merged_within_linked, rfl⟩⟩

/-- A loop that is left from a `finally` part:

    while y:
        try:
            x = y
        finally:
            x
            break
-/
def leftByFinally : List Stmt :=
  let name (line column : Int) (id : String) : Expr :=
    .at ⟨line, column, line, column + 1⟩ (.name id)
  [.at ⟨1, 0, 6, 13⟩ (.whileLoop (name 1 6 "y")
    [.at ⟨2, 4, 6, 13⟩ (.tryBlock false
      [.at ⟨3, 8, 3, 13⟩ (.assign [name 3 8 "x"] (name 3 12 "y"))] [] []
      [.at ⟨5, 8, 5, 9⟩ (.expr (name 5 8 "x")), .at ⟨6, 8, 6, 13⟩ .breakLoop])] [])]

/-- Its only turn. -/
def leftByFinallyRun : List Stmt :=
  let name (line column : Int) (id : String) : Expr :=
    .at ⟨line, column, line, column + 1⟩ (.name id)
  [testHeader (name 1 6 "y"), .at ⟨3, 8, 3, 13⟩ (.assign [name 3 8 "x"] (name 3 12 "y")),
    .at ⟨5, 8, 5, 9⟩ (.expr (name 5 8 "x"))]

theorem leftByFinally_finishes : FinishesBy merged leftByFinally leftByFinallyRun := by
  have hnothing : allCourse merged false [] [] .falls := ⟨rfl, rfl⟩
  refine .inl (.inl ⟨leftByFinallyRun, [], rfl, .breaks (.inr ⟨?_, by decide⟩), hnothing⟩)
  -- control falls into the `finally` part, which jumps itself
  refine ⟨[_], [_], .falls, .breaks, rfl, ?_, ?_, rfl, .inl rfl⟩
  · exact .inl ⟨[_], [], rfl, .inl ⟨[_], [], rfl, ⟨rfl, rfl⟩, ⟨rfl, rfl⟩⟩, ⟨rfl, rfl⟩⟩
  · exact .inl ⟨[_], [], rfl, ⟨rfl, rfl⟩, .inr ⟨⟨rfl, rfl⟩, by decide⟩⟩

theorem Graph.leftByFinally_path :
    FinishesBy merged leftByFinally leftByFinallyRun ∧ FinishesBy quiet leftByFinally leftByFinallyRun ∧
      ∃ c ∈ (Graph.ofBody "<module>" 1 [] leftByFinally).exits,
        (Graph.ofBody "<module>" 1 [] leftByFinally).Path
          (Graph.ofBody "<module>" 1 [] leftByFinally).entry (leftByFinallyRun.map some) c :=
  ⟨leftByFinally_finishes, Graph.merged_run_path "<module>" 1 [] leftByFinally_finishes⟩

/-- The body of a function that returns past a `finally` part:

    def f():
        try:
            x = 1
            return x
        finally:
            x
-/
def returnPastFinally : List Stmt :=
  let x (line column : Int) : Expr := .at ⟨line, column, line, column + 1⟩ (.name "x")
  [.at ⟨2, 4, 6, 9⟩ (.tryBlock false
    [.at ⟨3, 8, 3, 13⟩ (.assign [x 3 8] (.at ⟨3, 12, 3, 13⟩ (.constant (.int 1)))),
      .at ⟨4, 8, 4, 16⟩ (.ret (some (x 4 15)))] [] []
    [.at ⟨6, 8, 6, 9⟩ (.expr (x 6 8))])]

/-- Its run. -/
def returnPastFinallyRun : List Stmt :=
  let x (line column : Int) : Expr := .at ⟨line, column, line, column + 1⟩ (.name "x")
  [.at ⟨3, 8, 3, 13⟩ (.assign [x 3 8] (.at ⟨3, 12, 3, 13⟩ (.constant (.int 1)))),
    .at ⟨4, 8, 4, 16⟩ (.ret (some (x 4 15))), .at ⟨6, 8, 6, 9⟩ (.expr (x 6 8))]

/-- **A run without exceptions that is on no path.** The `finally` part is run behind the
`return`, and the paths end there. -/
theorem Graph.returnPastFinally_run_without_path :
    FinishesBy quiet returnPastFinally returnPastFinallyRun ∧
      ¬ ∃ c ∈ (Graph.ofBody "f" 1 [] returnPastFinally).exits,
        (Graph.ofBody "f" 1 [] returnPastFinally).Path
          (Graph.ofBody "f" 1 [] returnPastFinally).entry (returnPastFinallyRun.map some) c := by
  constructor
  · refine .inr (.inr ⟨⟨[_, _], [_], .returns, .falls, rfl, ?_, ?_, rfl⟩, by decide⟩)
    · exact .inr ⟨.inl ⟨[_], [_], rfl, ⟨rfl, rfl⟩, .inr ⟨⟨rfl, rfl⟩, by decide⟩⟩, by decide⟩
    · exact .inl ⟨[_], [], rfl, ⟨rfl, rfl⟩, ⟨rfl, rfl⟩⟩
  · -- the entry leads to the block with the `return` only, and that leads nowhere
    have hentry : ∀ b ∈ (Graph.ofBody "f" 1 [] returnPastFinally).blocks, b.id = 0 →
        b.succs = [1] ∧ b.statements.length = 0 := by decide +kernel
    have hreturn : ∀ b ∈ (Graph.ofBody "f" 1 [] returnPastFinally).blocks, b.id = 1 →
        b.succs = [] ∧ b.statements.length = 2 := by decide +kernel
    have hend : ∀ {i w c}, (Graph.ofBody "f" 1 [] returnPastFinally).Path i w c → i = 1 →
        w.length = 2 := by
      intro i w c hpath hi
      cases hpath with
      | stop hb => exact (hreturn _ hb hi).2
      | link hb hj => simp [(hreturn _ hb hi).1] at hj
    rintro ⟨c, -, hpath⟩
    generalize hw : returnPastFinallyRun.map some = w at hpath
    have hthree : w.length = 3 := hw ▸ rfl
    generalize hi : (Graph.ofBody "f" 1 [] returnPastFinally).entry = i at hpath
    cases hpath with
    | stop hb => simp [(hentry _ hb hi.symm).2] at hthree
    | link hb hj hrest =>
      obtain ⟨hsuccs, hlength⟩ := hentry _ hb hi.symm
      have hone := hend hrest (by simpa [hsuccs] using hj)
      rw [List.length_append, hlength, hone] at hthree
      cases hthree

end Reaching
