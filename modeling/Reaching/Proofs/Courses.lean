/-
What bodies with `try` statements may run.

A course says which statements a part of a body may run, one after the other, and how control
leaves it then. The courses of statements are put together from those of their parts
(`Code.Stmt.course`). What a `try` statement makes of its parts is a parameter, because there
are several answers: in a run without exceptions its `finally` part is run on every way out
(`Course.quiet`), while the paths of a graph pass a `finally` part only where control falls
into it, and may turn to a handler in front of the body and behind it (`Course.linked`). Runs
in which no jump passes a `finally` part that does something are both (`Course.merged`).
-/
import Mathlib.Order.Basic
import Reaching.Proofs.Runs

namespace Reaching

open Code

/-- What a part of a body may run, and how control leaves it. -/
abbrev Course := List Stmt → Ending → Prop

namespace Course

/-! ## Putting courses together -/

/-- Some statements, and a way in which control leaves. -/
def just (statements : List Stmt) (e : Ending) : Course := fun u e' => u = statements ∧ e' = e

/-- A course behind some statements. -/
def behind (headers : List Stmt) (c : Course) : Course := fun u e => ∃ v, u = headers ++ v ∧ c v e

/-- No course at all. -/
def never : Course := fun _ _ => False

/-- One of two courses. -/
def either (c d : Course) : Course := fun u e => c u e ∨ d u e

/-- One course after another: the second is run if the first falls through. -/
def seq (c d : Course) : Course :=
  fun u e => (∃ v w, u = v ++ w ∧ c v .falls ∧ d w e) ∨ (c u e ∧ e ≠ .falls)

/-- The turns of a loop. Its header is run before every turn, and once more before the loop ends
by itself. -/
inductive turns (header : Stmt) (body orelse : Course) : Course
  | ends {u : List Stmt} {e : Ending} : orelse u e → turns header body orelse (header :: u) e
  | again {u v : List Stmt} {e e' : Ending} : body u e → e = .falls ∨ e = .continues →
      turns header body orelse v e' → turns header body orelse (header :: (u ++ v)) e'
  | breaks {u : List Stmt} : body u .breaks → turns header body orelse (header :: u) .falls
  | returns {u : List Stmt} : body u .returns → turns header body orelse (header :: u) .returns

variable {c d c' d' : Course} {k : Ending → List Stmt → Prop} {w : List Stmt}

/-! What follows a course that is put together. -/

theorem then_just {statements : List Stmt} {e : Ending} :
    Then (just statements e) k w ↔ ∃ v, w = statements ++ v ∧ k e v := by
  constructor
  · rintro ⟨u, v, e', rfl, ⟨rfl, rfl⟩, hk⟩
    exact ⟨v, rfl, hk⟩
  · rintro ⟨v, rfl, hk⟩
    exact ⟨_, v, e, rfl, ⟨rfl, rfl⟩, hk⟩

theorem then_one {s : Stmt} {e : Ending} : Then (just [s] e) k w ↔ ∃ v, w = s :: v ∧ k e v := then_just

theorem then_none {e : Ending} : Then (just [] e) k w ↔ k e w := by simp [then_just]

theorem then_behind {headers : List Stmt} :
    Then (behind headers c) k w ↔ ∃ v, w = headers ++ v ∧ Then c k v := by
  constructor
  · rintro ⟨u, v, e, rfl, ⟨u, rfl, hrun⟩, hk⟩
    exact ⟨u ++ v, List.append_assoc .., u, v, e, rfl, hrun, hk⟩
  · rintro ⟨v, rfl, u, v, e, rfl, hrun, hk⟩
    exact ⟨headers ++ u, v, e, (List.append_assoc ..).symm, ⟨u, rfl, hrun⟩, hk⟩

theorem then_either : Then (either c d) k w ↔ Then c k w ∨ Then d k w := by
  constructor
  · rintro ⟨u, v, e, rfl, hrun | hrun, hk⟩
    · exact .inl ⟨u, v, e, rfl, hrun, hk⟩
    · exact .inr ⟨u, v, e, rfl, hrun, hk⟩
  · rintro (⟨u, v, e, rfl, hrun, hk⟩ | ⟨u, v, e, rfl, hrun, hk⟩)
    · exact ⟨u, v, e, rfl, .inl hrun, hk⟩
    · exact ⟨u, v, e, rfl, .inr hrun, hk⟩

theorem not_then_never : ¬ Then never k w := fun ⟨_, _, _, _, hrun, _⟩ => hrun

theorem then_seq : Then (seq c d) k w ↔ Then c (andThen d k) w := by
  constructor
  · rintro ⟨u, v, e, rfl, ⟨u, u', rfl, hc, hd⟩ | ⟨hc, he⟩, hk⟩
    · exact ⟨u, u' ++ v, .falls, List.append_assoc .., hc, u', v, e, rfl, hd, hk⟩
    · refine ⟨u, v, e, rfl, hc, ?_⟩
      cases e
      · exact absurd rfl he
      all_goals exact hk
  · rintro ⟨u, v, e, rfl, hc, hk⟩
    cases e with
    | falls =>
      obtain ⟨u', v', e', rfl, hd, hk⟩ := hk
      exact ⟨u ++ u', v', e', (List.append_assoc ..).symm, .inl ⟨u, u', rfl, hc, hd⟩, hk⟩
    | _ => exact ⟨u, v, _, rfl, .inr ⟨hc, by decide⟩, hk⟩

theorem then_turns {header : Stmt} :
    Then (turns header c d) k w ↔
      ∃ v, w = header :: v ∧ (Then d k v ∨ Then c (turn (Then (turns header c d) k) k) v) := by
  constructor
  · rintro ⟨u, v, e, rfl, hrun, hk⟩
    cases hrun with
    | ends h => exact ⟨_, rfl, .inl ⟨_, v, e, rfl, h, hk⟩⟩
    | again h he hloop =>
      refine ⟨_, rfl, .inr ⟨_, _, _, List.append_assoc .., h, ?_⟩⟩
      rcases he with rfl | rfl <;> exact ⟨_, v, e, rfl, hloop, hk⟩
    | breaks h => exact ⟨_, rfl, .inr ⟨_, v, _, rfl, h, hk⟩⟩
    | returns h => exact ⟨_, rfl, .inr ⟨_, v, _, rfl, h, hk⟩⟩
  · rintro ⟨v, rfl, ⟨u, v, e, rfl, h, hk⟩ | ⟨u, v, e, rfl, h, hk⟩⟩
    · exact ⟨_ :: u, v, e, rfl, .ends h, hk⟩
    · cases e with
      | falls =>
        obtain ⟨u', v', e', rfl, hloop, hk⟩ := hk
        exact ⟨_, v', e', by rw [← List.append_assoc]; rfl, .again h (.inl rfl) hloop, hk⟩
      | continues =>
        obtain ⟨u', v', e', rfl, hloop, hk⟩ := hk
        exact ⟨_, v', e', by rw [← List.append_assoc]; rfl, .again h (.inr rfl) hloop, hk⟩
      | breaks => exact ⟨_ :: u, v, _, rfl, .breaks h, hk⟩
      | returns => exact ⟨_ :: u, v, _, rfl, .returns h, hk⟩

/-! Parts that may run more make a whole that may run more. -/

theorem behind_mono (headers : List Stmt) (h : c ≤ c') : behind headers c ≤ behind headers c' := by
  rintro u e ⟨v, rfl, hv⟩
  exact ⟨v, rfl, h v e hv⟩

theorem either_mono (hc : c ≤ c') (hd : d ≤ d') : either c d ≤ either c' d' :=
  fun u e h => h.imp (hc u e) (hd u e)

theorem seq_mono (hc : c ≤ c') (hd : d ≤ d') : seq c d ≤ seq c' d' := by
  rintro u e (⟨v, w, rfl, hv, hw⟩ | ⟨hu, he⟩)
  · exact .inl ⟨v, w, rfl, hc v _ hv, hd w e hw⟩
  · exact .inr ⟨hc u e hu, he⟩

theorem turns_mono (header : Stmt) (hc : c ≤ c') (hd : d ≤ d') : turns header c d ≤ turns header c' d' := by
  intro u e hrun
  induction hrun with
  | ends h => exact .ends (hd _ _ h)
  | again h he _ ih => exact .again (hc _ _ h) he ih
  | breaks h => exact .breaks (hc _ _ h)
  | returns h => exact .returns (hc _ _ h)

end Course

/-! ## Courses of statements -/

/-- What a `try` statement makes of the courses of its body, of its handlers, and of its `else`
and `finally` parts. -/
abbrev TryRule := Course → Course → Course → Course → Course

/-- The headers that are run in front of the body of a handler. -/
def handlerHeaders (span : Span) (type : Option Expr) (name : Option String) : List Stmt :=
  (type.map (bindingHeader (name.map (handlerTarget span)))).toList

open Course in
mutual

/-- What a statement may run. Jumps outside of any loop do nothing. -/
def Code.Stmt.course (rule : TryRule) (inLoop : Bool) : Stmt → Course
  | .at _ (.ifElse test body orelse) =>
    behind [testHeader test] (either (allCourse rule inLoop body) (allCourse rule inLoop orelse))
  | .at _ (.whileLoop test body orelse) =>
    turns (testHeader test) (allCourse rule true body) (allCourse rule inLoop orelse)
  | .at _ (.forLoop _ target iter body orelse) =>
    turns (bindingHeader (some target) iter) (allCourse rule true body) (allCourse rule inLoop orelse)
  | .at _ (.withItems _ items body) => behind (itemHeaders items) (allCourse rule inLoop body)
  | .at _ (.tryBlock _ body handlers orelse finalbody) =>
    rule (allCourse rule inLoop body) (handlersCourse rule inLoop handlers)
      (allCourse rule inLoop orelse) (allCourse rule inLoop finalbody)
  | .at _ (.matchCases subject cases) =>
    behind [testHeader subject] (either (casesCourse rule inLoop cases) (just [] .falls))
  | .at span (.ret value) => just [.at span (.ret value)] .returns
  | .at _ .breakLoop => just [] (if inLoop then .breaks else .falls)
  | .at _ .continueLoop => just [] (if inLoop then .continues else .falls)
  | .at span form => just [.at span form] .falls

/-- What statements one after the other may run. -/
def allCourse (rule : TryRule) (inLoop : Bool) : List Stmt → Course
  | [] => just [] .falls
  | s :: rest => seq (s.course rule inLoop) (allCourse rule inLoop rest)

/-- What one of some handlers may run. -/
def handlersCourse (rule : TryRule) (inLoop : Bool) : List Handler → Course
  | [] => never
  | .at span type name body :: rest =>
    either (behind (handlerHeaders span type name) (allCourse rule inLoop body))
      (handlersCourse rule inLoop rest)

/-- What the body of one of some cases may run. -/
def casesCourse (rule : TryRule) (inLoop : Bool) : List Case → Course
  | [] => never
  | .of _ _ body :: rest => either (allCourse rule inLoop body) (casesCourse rule inLoop rest)

end

/-- A finite run of a whole body, where `try` statements follow a rule: it falls off the end or
returns. -/
def FinishesBy (rule : TryRule) (body u : List Stmt) : Prop :=
  allCourse rule false body u .falls ∨ allCourse rule false body u .returns

/-- A rule that allows no less than another, when its parts do. -/
def TryRule.Within (rule rule' : TryRule) : Prop :=
  ∀ ⦃b b' h h' o o' f f' : Course⦄, b ≤ b' → h ≤ h' → o ≤ o' → f ≤ f' → rule b h o f ≤ rule' b' h' o' f'

section

variable {rule rule' : TryRule}

mutual

/-- **A rule that allows more lets statements run more.** -/
theorem Code.Stmt.course_mono (hrule : rule.Within rule') : ∀ (inLoop : Bool) (s : Stmt),
    s.course rule inLoop ≤ s.course rule' inLoop
  | inLoop, .at span form => by
    cases form with
    | ifElse test body orelse =>
      exact Course.behind_mono _
        (Course.either_mono (allCourse_mono hrule inLoop body) (allCourse_mono hrule inLoop orelse))
    | whileLoop test body orelse =>
      exact Course.turns_mono _ (allCourse_mono hrule true body) (allCourse_mono hrule inLoop orelse)
    | forLoop isAsync target iter body orelse =>
      exact Course.turns_mono _ (allCourse_mono hrule true body) (allCourse_mono hrule inLoop orelse)
    | withItems isAsync items body => exact Course.behind_mono _ (allCourse_mono hrule inLoop body)
    | tryBlock isGroup body handlers orelse finalbody =>
      exact hrule (allCourse_mono hrule inLoop body) (handlersCourse_mono hrule inLoop handlers)
        (allCourse_mono hrule inLoop orelse) (allCourse_mono hrule inLoop finalbody)
    | matchCases subject cases =>
      exact Course.behind_mono _ (Course.either_mono (casesCourse_mono hrule inLoop cases) (le_refl _))
    | _ => exact le_refl _

theorem allCourse_mono (hrule : rule.Within rule') : ∀ (inLoop : Bool) (body : List Stmt),
    allCourse rule inLoop body ≤ allCourse rule' inLoop body
  | _, [] => le_refl _
  | inLoop, s :: rest => Course.seq_mono (s.course_mono hrule inLoop) (allCourse_mono hrule inLoop rest)

theorem handlersCourse_mono (hrule : rule.Within rule') : ∀ (inLoop : Bool) (handlers : List Handler),
    handlersCourse rule inLoop handlers ≤ handlersCourse rule' inLoop handlers
  | _, [] => le_refl _
  | inLoop, .at _ _ _ body :: rest =>
    Course.either_mono (Course.behind_mono _ (allCourse_mono hrule inLoop body))
      (handlersCourse_mono hrule inLoop rest)

theorem casesCourse_mono (hrule : rule.Within rule') : ∀ (inLoop : Bool) (cases : List Case),
    casesCourse rule inLoop cases ≤ casesCourse rule' inLoop cases
  | _, [] => le_refl _
  | inLoop, .of _ _ body :: rest =>
    Course.either_mono (allCourse_mono hrule inLoop body) (casesCourse_mono hrule inLoop rest)

end

end

theorem FinishesBy.mono {rule rule' : TryRule} (hrule : rule.Within rule') {body u : List Stmt}
    (h : FinishesBy rule body u) : FinishesBy rule' body u :=
  h.imp (allCourse_mono hrule false body u _) (allCourse_mono hrule false body u _)

/-! ## Bodies without `try` statements -/

/-- Runs are told apart by what may follow them. -/
theorem eq_of_then {c d : Course} (h : ∀ k w, Then c k w ↔ Then d k w) : c = d := by
  have hthen : ∀ (c : Course) u e, Then c (fun e' v => v = [] ∧ e' = e) u ↔ c u e := by
    intro c u e
    constructor
    · rintro ⟨u, v, e', rfl, hrun, rfl, rfl⟩
      rwa [List.append_nil]
    · exact fun hrun => ⟨u, [], e, (List.append_nil u).symm, hrun, rfl, rfl⟩
  funext u e
  exact propext ((hthen c u e).symm.trans ((h _ _).trans (hthen d u e)))

theorem execLoop_eq (header : Stmt) (body orelse : List Stmt) :
    ExecLoop header body orelse = Course.turns header (ExecAll body) (ExecAll orelse) :=
  eq_of_then fun _ => eq_of_turns (fun _ => then_loop) fun _ => Course.then_turns

mutual

/-- **The courses of structured statements are their runs**, whatever the rule for `try`. -/
theorem Code.Stmt.exec_eq_course (rule : TryRule) : ∀ (inLoop : Bool) (s : Stmt),
    s.isStructured inLoop = true → Exec s = s.course rule inLoop
  | inLoop, .at span form, hs => by
    cases form with
    | ifElse test body orelse =>
      obtain ⟨hbody, horelse⟩ := Bool.and_eq_true_iff.1 hs
      refine eq_of_then fun _ _ => then_ifElse.trans ?_
      rw [Stmt.course, Course.then_behind, ← execAll_eq_course rule inLoop body hbody,
        ← execAll_eq_course rule inLoop orelse horelse]
      exact exists_congr fun v => and_congr_right fun _ => Course.then_either.symm
    | whileLoop test body orelse =>
      obtain ⟨hbody, horelse⟩ := Bool.and_eq_true_iff.1 hs
      refine eq_of_then fun _ _ => then_whileLoop.trans ?_
      rw [Stmt.course, ← execAll_eq_course rule true body hbody,
        ← execAll_eq_course rule inLoop orelse horelse, execLoop_eq]
    | forLoop isAsync target iter body orelse =>
      obtain ⟨hbody, horelse⟩ := Bool.and_eq_true_iff.1 hs
      refine eq_of_then fun _ _ => then_forLoop.trans ?_
      rw [Stmt.course, ← execAll_eq_course rule true body hbody,
        ← execAll_eq_course rule inLoop orelse horelse, execLoop_eq]
    | withItems isAsync items body =>
      refine eq_of_then fun _ _ => then_withItems.trans ?_
      rw [Stmt.course, Course.then_behind, ← execAll_eq_course rule inLoop body hs]
    | matchCases subject cases =>
      refine eq_of_then fun _ _ => then_matchCases.trans ?_
      rw [Stmt.course, Course.then_behind, ← casesExec_eq_course rule inLoop cases hs]
      refine exists_congr fun v => and_congr_right fun _ => ?_
      rw [Course.then_either, then_exists_mem, Course.then_none]
    | tryBlock => cases hs
    | ret value => exact eq_of_then fun _ _ => then_ret.trans Course.then_one.symm
    | breakLoop =>
      obtain rfl : inLoop = true := hs
      exact eq_of_then fun _ _ => then_breakLoop.trans Course.then_none.symm
    | continueLoop =>
      obtain rfl : inLoop = true := hs
      exact eq_of_then fun _ _ => then_continueLoop.trans Course.then_none.symm
    | _ => exact eq_of_then fun _ _ => (then_simple rfl).trans Course.then_one.symm

theorem execAll_eq_course (rule : TryRule) : ∀ (inLoop : Bool) (body : List Stmt),
    allStructured inLoop body = true → ExecAll body = allCourse rule inLoop body
  | _, [], _ => eq_of_then fun _ _ => then_nil.trans Course.then_none.symm
  | inLoop, s :: rest, h => by
    obtain ⟨hs, hrest⟩ := Bool.and_eq_true_iff.1 h
    rw [allCourse, ← s.exec_eq_course rule inLoop hs, ← execAll_eq_course rule inLoop rest hrest]
    exact eq_of_then fun _ _ => then_cons.trans Course.then_seq.symm

theorem casesExec_eq_course (rule : TryRule) : ∀ (inLoop : Bool) (cases : List Case),
    casesStructured inLoop cases = true →
      (fun u e => ∃ c ∈ cases, ExecAll c.body u e) = casesCourse rule inLoop cases
  | _, [], _ => eq_of_then fun _ _ => by
    rw [then_exists_mem]
    simp [casesCourse, Course.not_then_never]
  | inLoop, .of p guard body :: rest, h => by
    obtain ⟨hbody, hrest⟩ := Bool.and_eq_true_iff.1 h
    rw [casesCourse, ← execAll_eq_course rule inLoop body hbody, ← casesExec_eq_course rule inLoop rest hrest]
    refine eq_of_then fun _ _ => ?_
    rw [then_exists_mem, Course.then_either, then_exists_mem]
    simp only [List.mem_cons, exists_eq_or_imp]
    exact Iff.rfl

end

/-! ## What a `try` statement runs -/

/-- How control goes on behind a `finally` part that was entered on some way out: on that
way, unless the part jumps itself. -/
def Ending.past (way : Ending) : Ending → Ending
  | .falls => way
  | e => e

namespace Course

/-- Without exceptions the body is run and, if it falls through, the `else` part. The `finally`
part is run on every way out. -/
def quiet : TryRule := fun body _ orelse final u e =>
  ∃ v w way e', u = v ++ w ∧ seq body orelse v way ∧ final w e' ∧ e = way.past e'

/-- The same, where control falls into the `finally` part or the part makes no difference: it
runs nothing and control goes on as it came. -/
def merged : TryRule := fun body _ orelse final u e =>
  ∃ v w way e', u = v ++ w ∧ seq body orelse v way ∧ final w e' ∧ e = way.past e' ∧
    (way = .falls ∨ (w = [] ∧ e = way))

/-- A handler may be run instead of the body or behind it, and jumps pass the `finally`
part by. -/
def linked : TryRule := fun body handlers orelse final =>
  seq (either (seq body (either handlers orelse)) handlers) final

theorem merged_within_quiet : merged.Within quiet := by
  rintro b b' h h' o o' f f' hb - ho hf u e ⟨v, w, way, e', rfl, hv, hw, he, -⟩
  exact ⟨v, w, way, e', rfl, seq_mono hb ho v way hv, hf w e' hw, he⟩

/-- **Where no jump passes a `finally` part that does something, a run is on a path.** -/
theorem merged_within_linked : merged.Within linked := by
  rintro b b' h h' o o' f f' hb - ho hf u e ⟨v, w, way, e', rfl, hv, hw, rfl, hway⟩
  have hv : seq b' (either h' o') v way := seq_mono hb (fun u e h => .inr (ho u e h)) v way hv
  by_cases hfalls : way = .falls
  · subst hfalls
    refine .inl ⟨v, w, rfl, .inl hv, ?_⟩
    cases e' <;> exact hf w _ hw
  · obtain ⟨rfl, hsame⟩ := hway.resolve_left hfalls
    rw [hsame, List.append_nil]
    exact .inr ⟨.inl hv, hfalls⟩

end Course

end Reaching
