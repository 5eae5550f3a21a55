/-
The finite runs of a body: which statements are run, one after the other, and
how the run ends.

Tests, bindings of loop targets and items are run as the headers that a layout
places for them, definitions are single statements. No run is cut short by an
error. `Exec` says what a statement may run, `ExecAll` what a list of them may
run, and `ExecLoop` what a loop may run from its header on.

A run is mostly met with what follows it (`Then`): a word that a run begins and
something else continues, according to how the run ended. The lemmas about `Then`
are the equations of the forms of statements.
-/
import Reaching.Graph.Layout

namespace Reaching

open Code

/-- How control leaves a statement. -/
inductive Ending where
  | falls | breaks | continues | returns
  deriving DecidableEq, Repr

/-! ## Bodies without exceptions -/

/-- Whether a statement is run in one piece and then falls through. -/
def Code.Stmt.isSimple (s : Stmt) : Bool :=
  match s.form with
  | .ifElse .. | .whileLoop .. | .forLoop .. | .withItems .. | .matchCases .. | .tryBlock .. => false
  | .ret _ | .breakLoop | .continueLoop => false
  | _ => true

mutual

/-- Whether a statement has no `try` in it and jumps only inside of loops. -/
def Code.Stmt.isStructured (inLoop : Bool) : Stmt → Bool
  | .at _ (.ifElse _ body orelse) => allStructured inLoop body && allStructured inLoop orelse
  | .at _ (.whileLoop _ body orelse) => allStructured true body && allStructured inLoop orelse
  | .at _ (.forLoop _ _ _ body orelse) => allStructured true body && allStructured inLoop orelse
  | .at _ (.withItems _ _ body) => allStructured inLoop body
  | .at _ (.matchCases _ cases) => casesStructured inLoop cases
  | .at _ (.tryBlock ..) => false
  | .at _ .breakLoop => inLoop
  | .at _ .continueLoop => inLoop
  | .at _ _ => true

def allStructured (inLoop : Bool) : List Stmt → Bool
  | [] => true
  | s :: rest => s.isStructured inLoop && allStructured inLoop rest

def casesStructured (inLoop : Bool) : List Case → Bool
  | [] => true
  | .of _ _ body :: rest => allStructured inLoop body && casesStructured inLoop rest

end

/-! ## Runs -/

/-- The bodies of cases. -/
def Code.Case.body : Case → List Stmt
  | .of _ _ body => body

/-- The headers of the items of a `with` statement. -/
def itemHeaders (items : List WithItem) : List Stmt :=
  items.map fun i => bindingHeader i.target i.context

mutual

/-- What a statement may run, and how it ends. -/
inductive Exec : Stmt → List Stmt → Ending → Prop
  | simple {s : Stmt} : s.isSimple = true → Exec s [s] .falls
  | ret {span : Span} {value : Option Expr} :
      Exec (.at span (.ret value)) [.at span (.ret value)] .returns
  | breakLoop {span : Span} : Exec (.at span .breakLoop) [] .breaks
  | continueLoop {span : Span} : Exec (.at span .continueLoop) [] .continues
  | ifTrue {span : Span} {test : Expr} {body orelse u : List Stmt} {e : Ending} :
      ExecAll body u e → Exec (.at span (.ifElse test body orelse)) (testHeader test :: u) e
  | ifFalse {span : Span} {test : Expr} {body orelse u : List Stmt} {e : Ending} :
      ExecAll orelse u e → Exec (.at span (.ifElse test body orelse)) (testHeader test :: u) e
  | whileLoop {span : Span} {test : Expr} {body orelse u : List Stmt} {e : Ending} :
      ExecLoop (testHeader test) body orelse u e → Exec (.at span (.whileLoop test body orelse)) u e
  | forLoop {span : Span} {isAsync : Bool} {target iter : Expr} {body orelse u : List Stmt}
      {e : Ending} : ExecLoop (bindingHeader (some target) iter) body orelse u e →
      Exec (.at span (.forLoop isAsync target iter body orelse)) u e
  | withItems {span : Span} {isAsync : Bool} {items : List WithItem} {body u : List Stmt}
      {e : Ending} :
      ExecAll body u e → Exec (.at span (.withItems isAsync items body)) (itemHeaders items ++ u) e
  | someCase {span : Span} {subject : Expr} {cases : List Case} {c : Case} {u : List Stmt}
      {e : Ending} : c ∈ cases → ExecAll c.body u e →
      Exec (.at span (.matchCases subject cases)) (testHeader subject :: u) e
  | noCase {span : Span} {subject : Expr} {cases : List Case} :
      Exec (.at span (.matchCases subject cases)) [testHeader subject] .falls

/-- What statements one after the other may run: the rest of them is run if one
falls through, and is skipped if it jumps. -/
inductive ExecAll : List Stmt → List Stmt → Ending → Prop
  | nil : ExecAll [] [] .falls
  | next {s : Stmt} {rest u v : List Stmt} {e : Ending} :
      Exec s u .falls → ExecAll rest v e → ExecAll (s :: rest) (u ++ v) e
  | leave {s : Stmt} {rest u : List Stmt} {e : Ending} :
      Exec s u e → e ≠ .falls → ExecAll (s :: rest) u e

/-- What a loop may run from its header on. The header is run before every turn,
and once more before the loop ends by itself and its `else` part is run. -/
inductive ExecLoop : Stmt → List Stmt → List Stmt → List Stmt → Ending → Prop
  | ends {header : Stmt} {body orelse u : List Stmt} {e : Ending} :
      ExecAll orelse u e → ExecLoop header body orelse (header :: u) e
  | again {header : Stmt} {body orelse u v : List Stmt} {e e' : Ending} :
      ExecAll body u e → e = .falls ∨ e = .continues → ExecLoop header body orelse v e' →
      ExecLoop header body orelse (header :: (u ++ v)) e'
  | breaks {header : Stmt} {body orelse u : List Stmt} :
      ExecAll body u .breaks → ExecLoop header body orelse (header :: u) .falls
  | returns {header : Stmt} {body orelse u : List Stmt} :
      ExecAll body u .returns → ExecLoop header body orelse (header :: u) .returns

end

/-- A finite run of a whole body: it falls off the end or returns. -/
def Finishes (body u : List Stmt) : Prop := ExecAll body u .falls ∨ ExecAll body u .returns

/-! ## Runs and what follows them -/

/-- A word that a run begins and that goes on as its ending says. -/
def Then (runs : List Stmt → Ending → Prop) (k : Ending → List Stmt → Prop) (w : List Stmt) : Prop :=
  ∃ u v e, w = u ++ v ∧ runs u e ∧ k e v

variable {k : Ending → List Stmt → Prop} {w : List Stmt}

theorem Then.imp {runs : List Stmt → Ending → Prop} {k' : Ending → List Stmt → Prop}
    (himp : ∀ e v, v.length ≤ w.length → k e v → k' e v) (h : Then runs k w) : Then runs k' w := by
  obtain ⟨u, v, e, rfl, hrun, hk⟩ := h
  exact ⟨u, v, e, rfl, hrun, himp e v (by simp) hk⟩

/-- What follows a run matters only for words that are no longer. -/
theorem then_congr {runs : List Stmt → Ending → Prop} {k' : Ending → List Stmt → Prop}
    (hk : ∀ e v, v.length ≤ w.length → (k e v ↔ k' e v)) : Then runs k w ↔ Then runs k' w :=
  ⟨Then.imp fun e v hv => (hk e v hv).1, Then.imp fun e v hv => (hk e v hv).2⟩

theorem then_exists_mem {α : Type} {items : List α} {runs : α → List Stmt → Ending → Prop} :
    Then (fun u e => ∃ a ∈ items, runs a u e) k w ↔ ∃ a ∈ items, Then (runs a) k w := by
  constructor
  · rintro ⟨u, v, e, rfl, ⟨a, ha, hrun⟩, hk⟩
    exact ⟨a, ha, u, v, e, rfl, hrun, hk⟩
  · rintro ⟨a, ha, u, v, e, rfl, hrun, hk⟩
    exact ⟨u, v, e, rfl, ⟨a, ha, hrun⟩, hk⟩

/-- What goes on with a list of statements where a run falls through. -/
def andThen (runs : List Stmt → Ending → Prop) (k : Ending → List Stmt → Prop) :
    Ending → List Stmt → Prop
  | .falls, v => Then runs k v
  | e, v => k e v

/-- What follows the body of a loop: its header again, or what follows the loop. -/
def turn (again : List Stmt → Prop) (k : Ending → List Stmt → Prop) : Ending → List Stmt → Prop
  | .falls, v => again v
  | .continues, v => again v
  | .breaks, v => k .falls v
  | .returns, v => k .returns v

theorem then_nil : Then (ExecAll []) k w ↔ k .falls w := by
  constructor
  · rintro ⟨u, v, e, rfl, hrun, hk⟩
    cases hrun
    exact hk
  · intro hk
    exact ⟨[], w, .falls, rfl, .nil, hk⟩

theorem then_cons {s : Stmt} {rest : List Stmt} :
    Then (ExecAll (s :: rest)) k w ↔ Then (Exec s) (andThen (ExecAll rest) k) w := by
  constructor
  · rintro ⟨u, v, e, rfl, hrun, hk⟩
    cases hrun with
    | next hs hrest => exact ⟨_, _, _, List.append_assoc .., hs, _, _, _, rfl, hrest, hk⟩
    | leave hs he =>
      refine ⟨u, v, e, rfl, hs, ?_⟩
      cases e
      · exact absurd rfl he
      all_goals exact hk
  · rintro ⟨u, v, e, rfl, hrun, hk⟩
    cases e with
    | falls =>
      obtain ⟨u', v', e', rfl, hrest, hk⟩ := hk
      exact ⟨u ++ u', v', e', (List.append_assoc ..).symm, .next hrun hrest, hk⟩
    | _ => exact ⟨u, v, _, rfl, .leave hrun (by decide), hk⟩

theorem then_simple {s : Stmt} (h : s.isSimple = true) :
    Then (Exec s) k w ↔ ∃ v, w = s :: v ∧ k .falls v := by
  constructor
  · rintro ⟨u, v, e, rfl, hrun, hk⟩
    cases hrun with
    | simple => exact ⟨v, rfl, hk⟩
    | _ => simp [Stmt.isSimple] at h
  · rintro ⟨v, rfl, hk⟩
    exact ⟨[s], v, .falls, rfl, .simple h, hk⟩

theorem then_ret {span : Span} {value : Option Expr} :
    Then (Exec (.at span (.ret value))) k w ↔ ∃ v, w = .at span (.ret value) :: v ∧ k .returns v := by
  constructor
  · rintro ⟨u, v, e, rfl, hrun, hk⟩
    cases hrun with
    | simple h => simp [Stmt.isSimple] at h
    | ret => exact ⟨v, rfl, hk⟩
  · rintro ⟨v, rfl, hk⟩
    exact ⟨[_], v, .returns, rfl, .ret, hk⟩

theorem then_breakLoop {span : Span} : Then (Exec (.at span .breakLoop)) k w ↔ k .breaks w := by
  constructor
  · rintro ⟨u, v, e, rfl, hrun, hk⟩
    cases hrun with
    | simple h => simp [Stmt.isSimple] at h
    | breakLoop => exact hk
  · intro hk
    exact ⟨[], w, .breaks, rfl, .breakLoop, hk⟩

theorem then_continueLoop {span : Span} :
    Then (Exec (.at span .continueLoop)) k w ↔ k .continues w := by
  constructor
  · rintro ⟨u, v, e, rfl, hrun, hk⟩
    cases hrun with
    | simple h => simp [Stmt.isSimple] at h
    | continueLoop => exact hk
  · intro hk
    exact ⟨[], w, .continues, rfl, .continueLoop, hk⟩

theorem then_ifElse {span : Span} {test : Expr} {body orelse : List Stmt} :
    Then (Exec (.at span (.ifElse test body orelse))) k w ↔
      ∃ v, w = testHeader test :: v ∧ (Then (ExecAll body) k v ∨ Then (ExecAll orelse) k v) := by
  constructor
  · rintro ⟨u, v, e, rfl, hrun, hk⟩
    cases hrun with
    | simple h => simp [Stmt.isSimple] at h
    | ifTrue h => exact ⟨_, rfl, .inl ⟨_, v, e, rfl, h, hk⟩⟩
    | ifFalse h => exact ⟨_, rfl, .inr ⟨_, v, e, rfl, h, hk⟩⟩
  · rintro ⟨v, rfl, ⟨u, v, e, rfl, h, hk⟩ | ⟨u, v, e, rfl, h, hk⟩⟩
    · exact ⟨_ :: u, v, e, rfl, .ifTrue h, hk⟩
    · exact ⟨_ :: u, v, e, rfl, .ifFalse h, hk⟩

theorem then_whileLoop {span : Span} {test : Expr} {body orelse : List Stmt} :
    Then (Exec (.at span (.whileLoop test body orelse))) k w ↔
      Then (ExecLoop (testHeader test) body orelse) k w := by
  constructor
  · rintro ⟨u, v, e, rfl, hrun, hk⟩
    cases hrun with
    | simple h => simp [Stmt.isSimple] at h
    | whileLoop h => exact ⟨u, v, e, rfl, h, hk⟩
  · rintro ⟨u, v, e, rfl, h, hk⟩
    exact ⟨u, v, e, rfl, .whileLoop h, hk⟩

theorem then_forLoop {span : Span} {isAsync : Bool} {target iter : Expr} {body orelse : List Stmt} :
    Then (Exec (.at span (.forLoop isAsync target iter body orelse))) k w ↔
      Then (ExecLoop (bindingHeader (some target) iter) body orelse) k w := by
  constructor
  · rintro ⟨u, v, e, rfl, hrun, hk⟩
    cases hrun with
    | simple h => simp [Stmt.isSimple] at h
    | forLoop h => exact ⟨u, v, e, rfl, h, hk⟩
  · rintro ⟨u, v, e, rfl, h, hk⟩
    exact ⟨u, v, e, rfl, .forLoop h, hk⟩

theorem then_withItems {span : Span} {isAsync : Bool} {items : List WithItem} {body : List Stmt} :
    Then (Exec (.at span (.withItems isAsync items body))) k w ↔
      ∃ v, w = itemHeaders items ++ v ∧ Then (ExecAll body) k v := by
  constructor
  · rintro ⟨u, v, e, rfl, hrun, hk⟩
    cases hrun with
    | simple h => simp [Stmt.isSimple] at h
    | withItems h => exact ⟨_, List.append_assoc .., _, v, e, rfl, h, hk⟩
  · rintro ⟨v, rfl, u, v, e, rfl, h, hk⟩
    exact ⟨_, v, e, (List.append_assoc ..).symm, .withItems h, hk⟩

theorem then_matchCases {span : Span} {subject : Expr} {cases : List Case} :
    Then (Exec (.at span (.matchCases subject cases))) k w ↔
      ∃ v, w = testHeader subject :: v ∧
        ((∃ c ∈ cases, Then (ExecAll c.body) k v) ∨ k .falls v) := by
  constructor
  · rintro ⟨u, v, e, rfl, hrun, hk⟩
    cases hrun with
    | simple h => simp [Stmt.isSimple] at h
    | someCase hc h => exact ⟨_, rfl, .inl ⟨_, hc, _, v, e, rfl, h, hk⟩⟩
    | noCase => exact ⟨v, rfl, .inr hk⟩
  · rintro ⟨v, rfl, ⟨c, hc, u, v, e, rfl, h, hk⟩ | hk⟩
    · exact ⟨_ :: u, v, e, rfl, .someCase hc h, hk⟩
    · exact ⟨[_], v, .falls, rfl, .noCase, hk⟩

/-- **A loop runs its header**, and then its `else` part or a turn. -/
theorem then_loop {header : Stmt} {body orelse : List Stmt} :
    Then (ExecLoop header body orelse) k w ↔
      ∃ v, w = header :: v ∧ (Then (ExecAll orelse) k v ∨
        Then (ExecAll body) (turn (Then (ExecLoop header body orelse) k) k) v) := by
  constructor
  · rintro ⟨u, v, e, rfl, hrun, hk⟩
    cases hrun with
    | ends h => exact ⟨_, rfl, .inl ⟨_, v, e, rfl, h, hk⟩⟩
    | again h he hloop =>
      refine ⟨_, rfl, .inr ⟨_, _, _, List.append_assoc .., h, ?_⟩⟩
      rcases he with rfl | rfl <;> exact ⟨_, v, e, rfl, hloop, hk⟩
    | breaks h => exact ⟨_, rfl, .inr ⟨_, v, _, rfl, h, hk⟩⟩
    | returns h => exact ⟨_, rfl, .inr ⟨_, v, _, rfl, h, hk⟩⟩
  · rintro ⟨v, rfl, ⟨u, v, e, rfl, h, hk⟩ | ⟨u, v, e, rfl, h, hk⟩⟩
    · exact ⟨_ :: u, v, e, rfl, .ends h, hk⟩
    · cases e with
      | falls =>
        obtain ⟨u', v', e', rfl, hloop, hk⟩ := hk
        exact ⟨_, v', e', by rw [← List.append_assoc]; rfl, .again h (.inl rfl) hloop, hk⟩
      | continues =>
        obtain ⟨u', v', e', rfl, hloop, hk⟩ := hk
        exact ⟨_, v', e', by rw [← List.append_assoc]; rfl, .again h (.inr rfl) hloop, hk⟩
      | breaks => exact ⟨_ :: u, v, _, rfl, .breaks h, hk⟩
      | returns => exact ⟨_ :: u, v, _, rfl, .returns h, hk⟩

/-- Two predicates on words that take a loop apart in the same way are the same. The
header makes the words shorter, so that the equation has one solution. -/
theorem eq_of_turns {header : Stmt} {body orelse : List Stmt → Ending → Prop}
    {again again' : List Stmt → Prop}
    (h : ∀ w, again w ↔ ∃ v, w = header :: v ∧ (Then orelse k v ∨ Then body (turn again k) v))
    (h' : ∀ w, again' w ↔ ∃ v, w = header :: v ∧ (Then orelse k v ∨ Then body (turn again' k) v)) :
    ∀ w, again w ↔ again' w := by
  have bounded : ∀ n w, w.length ≤ n → (again w ↔ again' w) := by
    intro n
    induction n with
    | zero =>
      intro w hw
      obtain rfl := List.length_eq_zero_iff.1 (Nat.le_zero.1 hw)
      rw [h, h']
      simp
    | succ n ih =>
      intro w hw
      rw [h, h']
      refine exists_congr fun v => and_congr_right fun hv => or_congr_right (then_congr fun e t ht => ?_)
      have htn : t.length ≤ n := by
        rw [hv, List.length_cons] at hw
        omega
      cases e
      · exact ih t htn
      · exact Iff.rfl
      · exact ih t htn
      · exact Iff.rfl
  exact fun w => bounded w.length w (Nat.le_refl _)

end Reaching
