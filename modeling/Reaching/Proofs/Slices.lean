/-
Slices are what chains of edges reach.

The loop that follows the edges keeps the spans that were followed apart from those
that wait, and a span may wait several times. `Explores` is this loop without a bound
on its turns: it ends if there is a derivation, and then with the result that is given.
A turn either takes a span that was followed before from the queue, or follows each edge
of a new span once, so the queue and the edges that are not followed yet bound the turns
(`exists_explores`).

What is followed is closed under the edges but for what waits; so at the end it is what
the edges reach from the start (`Explores.mem_iff`).

The lines of a slice are those of its spans. A chain of edges has both its ends at ends of
edges or neither, so it makes no difference at which of them a slice starts (`lines_dual`).
-/
import Mathlib.Logic.Relation
import Reaching.Slice

namespace Reaching
namespace Slice

open Relation

/-! ## The loop -/

/-- The loop that follows `step` from the waiting spans, from its test on: it ends when
no span waits, a span that was seen is dropped, and from a new one `step` is followed. -/
inductive Explores (step : Span → List Span) : List Span → List Span → List Span → Prop
  | done {seen : List Span} : Explores step seen [] seen
  | again {seen waiting result : List Span} {s : Span} : s ∈ seen →
      Explores step seen waiting result → Explores step seen (s :: waiting) result
  | new {seen waiting result : List Span} {s : Span} : s ∉ seen →
      Explores step (s :: seen) (waiting ++ (step s).filter fun t => !(s :: seen).contains t) result →
      Explores step seen (s :: waiting) result

variable {step : Span → List Span} {seen waiting start result : List Span}

theorem Explores.mem_of_seen (h : Explores step seen waiting result) {s : Span} (hs : s ∈ seen) :
    s ∈ result := by
  induction h with
  | done => exact hs
  | again _ _ ih => exact ih hs
  | new _ _ ih => exact ih (List.mem_cons_of_mem _ hs)

theorem Explores.mem_of_waiting (h : Explores step seen waiting result) {s : Span}
    (hs : s ∈ waiting) : s ∈ result := by
  induction h with
  | done => cases hs
  | again hseen hrest ih =>
    rcases List.mem_cons.1 hs with rfl | hs
    · exact hrest.mem_of_seen hseen
    · exact ih hs
  | new _ hrest ih =>
    rcases List.mem_cons.1 hs with rfl | hs
    · exact hrest.mem_of_seen (List.mem_cons_self ..)
    · exact ih (List.mem_append_left _ hs)

/-- The result is closed under `step` if what was seen is, but for what waits. -/
theorem Explores.closed (h : Explores step seen waiting result)
    (hclosed : ∀ s ∈ seen, ∀ t ∈ step s, t ∈ seen ∨ t ∈ waiting) {s t : Span} (hs : s ∈ result)
    (ht : t ∈ step s) : t ∈ result := by
  induction h with
  | done => exact (hclosed s hs t ht).resolve_right List.not_mem_nil
  | @again seen waiting result r hseen _ ih =>
    refine ih (fun a ha b hb => ?_) hs
    rcases hclosed a ha b hb with hb | hb
    · exact .inl hb
    · rcases List.mem_cons.1 hb with rfl | hb
      · exact .inl hseen
      · exact .inr hb
  | @new seen waiting result r _ _ ih =>
    refine ih (fun a ha b hb => ?_) hs
    by_cases hseen : b ∈ r :: seen
    · exact .inl hseen
    · refine .inr (List.mem_append.2 ?_)
      rcases List.mem_cons.1 ha with rfl | ha
      · exact .inr (List.mem_filter.2 ⟨hb, by simpa using hseen⟩)
      · rcases hclosed a ha b hb with hb | hb
        · exact absurd (List.mem_cons_of_mem _ hb) hseen
        · exact .inl ((List.mem_cons.1 hb).resolve_left fun hbr => hseen (hbr ▸ List.mem_cons_self ..))

/-- What is found was seen before, or is reached from what waits. -/
theorem Explores.sound (h : Explores step seen waiting result) {s : Span} (hs : s ∈ result) :
    s ∈ seen ∨ ∃ r ∈ waiting, ReflTransGen (fun a b => b ∈ step a) r s := by
  induction h with
  | done => exact .inl hs
  | again _ _ ih =>
    refine (ih hs).imp_right ?_
    rintro ⟨r, hr, hpath⟩
    exact ⟨r, List.mem_cons_of_mem _ hr, hpath⟩
  | @new seen waiting result a _ _ ih =>
    rcases ih hs with hseen | ⟨r, hr, hpath⟩
    · rcases List.mem_cons.1 hseen with rfl | hseen
      · exact .inr ⟨s, List.mem_cons_self .., .refl⟩
      · exact .inl hseen
    · refine .inr ?_
      rcases List.mem_append.1 hr with hr | hr
      · exact ⟨r, List.mem_cons_of_mem _ hr, hpath⟩
      · exact ⟨a, List.mem_cons_self .., .head (List.mem_filter.1 hr).1 hpath⟩

/-- **The loop finds what `step` reaches from the start.** -/
theorem Explores.mem_iff (h : Explores step [] start result) {s : Span} :
    s ∈ result ↔ ∃ r ∈ start, ReflTransGen (fun a b => b ∈ step a) r s := by
  constructor
  · intro hs
    exact (h.sound hs).resolve_left List.not_mem_nil
  · rintro ⟨r, hr, hpath⟩
    have hclosed : ∀ a ∈ ([] : List Span), ∀ b ∈ step a, b ∈ ([] : List Span) ∨ b ∈ start :=
      fun _ ha => nomatch ha
    induction hpath with
    | refl => exact h.mem_of_waiting hr
    | tail _ hstep ih => exact h.closed hclosed ih hstep

theorem Explores.nodup (h : Explores step seen waiting result) (hseen : seen.Nodup) : result.Nodup := by
  induction h with
  | done => exact hseen
  | again _ _ ih => exact ih hseen
  | new hnew _ ih => exact ih (List.nodup_cons.2 ⟨hnew, hseen⟩)

/-- **The loop ends** with the result of `explore`, if each turn makes a number smaller
and there are that many turns. -/
theorem explores_explore (step : Span → List Span) (unfollowed : List Span → Nat)
    (hless : ∀ (seen : List Span) (s : Span), s ∉ seen →
      (step s).length + unfollowed (s :: seen) ≤ unfollowed seen) :
    ∀ (fuel : Nat) (seen waiting : List Span), waiting.length + unfollowed seen ≤ fuel →
      Explores step seen waiting (explore step fuel seen waiting)
  | 0, seen, waiting, h => by
    obtain rfl : waiting = [] := List.length_eq_zero_iff.1 (by omega)
    exact .done
  | fuel + 1, seen, [], _ => .done
  | fuel + 1, seen, s :: waiting, h => by
    rw [List.length_cons] at h
    by_cases hs : s ∈ seen
    · rw [explore, if_pos (List.contains_iff_mem.2 hs)]
      exact .again hs (explores_explore step unfollowed hless fuel seen waiting (by omega))
    · rw [explore, if_neg (mt List.contains_iff_mem.1 hs)]
      refine .new hs (explores_explore step unfollowed hless fuel _ _ ?_)
      have hnew := hless seen s hs
      have hfilter := List.length_filter_le (fun t => !(s :: seen).contains t) (step s)
      rw [List.length_append]
      omega

/-! ## Edges -/

/-- The end of an edge from which a slice follows it. -/
def near : Direction → Edge → Span
  | .backward, e => e.target
  | .forward, e => e.source

/-- The end of an edge to which a slice follows it. -/
def far : Direction → Edge → Span
  | .backward, e => e.source
  | .forward, e => e.target

theorem next_eq (direction : Direction) (edges : List Edge) (s : Span) :
    next direction edges s = (edges.filter fun e => near direction e = s).map (far direction) := by
  cases direction <;> rfl

/-- The edges that start in no span that was seen. -/
def unfollowed (direction : Direction) (edges : List Edge) (seen : List Span) : Nat :=
  edges.countP fun e => near direction e ∉ seen

/-- The edges from a new span are followed once. -/
theorem unfollowed_cons (direction : Direction) (edges : List Edge) {seen : List Span} {s : Span}
    (hs : s ∉ seen) : (next direction edges s).length + unfollowed direction edges (s :: seen) =
      unfollowed direction edges seen := by
  rw [next_eq, List.length_map, ← List.countP_eq_length_filter]
  unfold unfollowed
  induction edges with
  | nil => rfl
  | cons e edges ih =>
    simp only [List.countP_cons, List.mem_cons, not_or]
    by_cases hnear : near direction e = s
    · simp [hnear, hs] at ih ⊢
      omega
    · simp [hnear] at ih ⊢
      omega

/-- **A slice is found.** The loop from the seeds ends with it. -/
theorem explores_spans (direction : Direction) (edges : List Edge) (lines : List Int) :
    Explores (next direction edges) [] (seeds edges lines) (spans direction edges lines) := by
  have hless : ∀ (seen : List Span) (s : Span), s ∉ seen →
      (next direction edges s).length + unfollowed direction edges (s :: seen) ≤
        unfollowed direction edges seen :=
    fun _ _ hs => Nat.le_of_eq (unfollowed_cons direction edges hs)
  refine explores_explore (next direction edges) (unfollowed direction edges) hless _ _ _ ?_
  have hall : unfollowed direction edges [] ≤ edges.length := List.countP_le_length
  omega

/-! ## Slices -/

/-- A value made at one span may be read at another. -/
def Flows (edges : List Edge) (s t : Span) : Prop := ⟨s, t⟩ ∈ edges

/-- A span is an end of an edge and lies on one of some lines. -/
def IsSeed (edges : List Edge) (lines : List Int) (s : Span) : Prop :=
  (∃ e ∈ edges, s = e.source ∨ s = e.target) ∧
    ∃ line ∈ lines, s.firstLine ≤ line ∧ line ≤ s.lastLine

theorem mem_seeds {edges : List Edge} {lines : List Int} {s : Span} :
    s ∈ seeds edges lines ↔ IsSeed edges lines s := by
  simp [seeds, endpoints, IsSeed, List.mem_eraseDups, Span.containsLine_iff]

theorem mem_next_backward {edges : List Edge} {s t : Span} :
    t ∈ next .backward edges s ↔ Flows edges t s := by
  simp only [next, Flows, List.mem_map, List.mem_filter, decide_eq_true_eq]
  constructor
  · rintro ⟨e, ⟨he, rfl⟩, rfl⟩
    exact he
  · intro he
    exact ⟨_, ⟨he, rfl⟩, rfl⟩

theorem mem_next_forward {edges : List Edge} {s t : Span} :
    t ∈ next .forward edges s ↔ Flows edges s t := by
  simp only [next, Flows, List.mem_map, List.mem_filter, decide_eq_true_eq]
  constructor
  · rintro ⟨e, ⟨he, rfl⟩, rfl⟩
    exact he
  · intro he
    exact ⟨_, ⟨he, rfl⟩, rfl⟩

/-- **Slices are exact.** For any edges and lines, the loop of a slice ends, with every
span once. A backward slice holds just the spans from which a chain of edges leads to a
seed, a forward slice just those to which one leads from a seed. -/
theorem spans_exact (edges : List Edge) (lines : List Int) :
    (∀ direction, Explores (next direction edges) [] (seeds edges lines) (spans direction edges lines) ∧
      (spans direction edges lines).Nodup) ∧
    (∀ s, s ∈ spans .backward edges lines ↔
      ∃ t, IsSeed edges lines t ∧ ReflTransGen (Flows edges) s t) ∧
    (∀ s, s ∈ spans .forward edges lines ↔
      ∃ t, IsSeed edges lines t ∧ ReflTransGen (Flows edges) t s) := by
  refine ⟨fun direction => ?_, fun s => ?_, fun s => ?_⟩
  · have h := explores_spans direction edges lines
    exact ⟨h, h.nodup List.nodup_nil⟩
  · rw [(explores_spans .backward edges lines).mem_iff]
    simp only [mem_seeds, mem_next_backward]
    exact exists_congr fun t => and_congr_right fun _ => reflTransGen_swap
  · rw [(explores_spans .forward edges lines).mem_iff]
    simp only [mem_seeds, mem_next_forward]

/-! ## Lines -/

theorem mem_eraseReps_loop {last line : Int} {rest found : List Int} :
    line ∈ List.eraseRepsBy.loop (fun a b => a == b) last rest found ↔
      line ∈ found ∨ line = last ∨ line ∈ rest := by
  induction rest generalizing last found with
  | nil => simp [List.eraseRepsBy.loop, or_comm]
  | cons next rest ih =>
    rw [List.eraseRepsBy.loop]
    split
    · rename_i heq
      obtain rfl : last = next := by simpa using heq
      simp [ih]
    · simp [ih, or_assoc, or_left_comm]

/-- A line is covered just when one of the spans has it. -/
theorem mem_coveredLines {spans : List Span} {line : Int} :
    line ∈ coveredLines spans ↔ ∃ s ∈ spans, s.firstLine ≤ line ∧ line ≤ s.lastLine := by
  have hreps : ∀ l : List Int, line ∈ l.eraseReps ↔ line ∈ l := by
    intro l
    cases l with
    | nil => rfl
    | cons a l => simp [List.eraseReps, List.eraseRepsBy, mem_eraseReps_loop]
  simp only [coveredLines, hreps, List.mem_mergeSort, List.mem_flatMap, Span.mem_lines]

/-- A span is an end of an edge. -/
def IsEnd (edges : List Edge) (s : Span) : Prop := ∃ e ∈ edges, s = e.source ∨ s = e.target

/-- **Of a chain of edges both ends are ends of edges, or none is.** A chain without edges
may stand anywhere. -/
theorem isEnd_iff_of_chain {edges : List Edge} {s t : Span} (h : ReflTransGen (Flows edges) s t) :
    IsEnd edges s ↔ IsEnd edges t := by
  induction h with
  | refl => exact Iff.rfl
  | @tail r t _ hstep ih =>
    have hr : IsEnd edges r := ⟨_, hstep, .inl rfl⟩
    have ht : IsEnd edges t := ⟨_, hstep, .inr rfl⟩
    exact ih.trans ⟨fun _ => ht, fun _ => hr⟩

theorem isSeed_singleton {edges : List Edge} {line : Int} {s : Span} :
    IsSeed edges [line] s ↔ IsEnd edges s ∧ s.firstLine ≤ line ∧ line ≤ s.lastLine := by
  simp [IsSeed, IsEnd]

/-- What a backward slice from a line covers: the spans that chains of edges lead from, to
an end of an edge on that line. -/
theorem mem_lines_backward {edges : List Edge} {seed line : Int} :
    line ∈ lines .backward edges [seed] ↔ ∃ s t, ReflTransGen (Flows edges) s t ∧ IsEnd edges t ∧
      (s.firstLine ≤ line ∧ line ≤ s.lastLine) ∧ t.firstLine ≤ seed ∧ seed ≤ t.lastLine := by
  simp only [lines, mem_coveredLines, (explores_spans .backward edges [seed]).mem_iff, mem_seeds,
    isSeed_singleton, mem_next_backward]
  constructor
  · rintro ⟨s, ⟨t, ⟨hend, hseed⟩, hchain⟩, hline⟩
    exact ⟨s, t, reflTransGen_swap.1 hchain, hend, hline, hseed⟩
  · rintro ⟨s, t, hchain, hend, hline, hseed⟩
    exact ⟨s, ⟨t, ⟨hend, hseed⟩, reflTransGen_swap.2 hchain⟩, hline⟩

/-- What a forward slice from a line covers: the spans that chains of edges lead to, from
an end of an edge on that line. -/
theorem mem_lines_forward {edges : List Edge} {seed line : Int} :
    line ∈ lines .forward edges [seed] ↔ ∃ s t, ReflTransGen (Flows edges) s t ∧ IsEnd edges s ∧
      (s.firstLine ≤ seed ∧ seed ≤ s.lastLine) ∧ t.firstLine ≤ line ∧ line ≤ t.lastLine := by
  simp only [lines, mem_coveredLines, (explores_spans .forward edges [seed]).mem_iff, mem_seeds,
    isSeed_singleton, mem_next_forward]
  constructor
  · rintro ⟨t, ⟨s, ⟨hend, hseed⟩, hchain⟩, hline⟩
    exact ⟨s, t, hchain, hend, hseed, hline⟩
  · rintro ⟨s, t, hchain, hend, hseed, hline⟩
    exact ⟨t, ⟨s, ⟨hend, hseed⟩, hchain⟩, hline⟩

/-- **Backward and forward slices are dual.** A line is on the backward slice from another
one just when that one is on the forward slice from it, whatever the spans: both say that a
chain of edges leads from a span with the one line to a span with the other. -/
theorem lines_dual (edges : List Edge) (a b : Int) :
    (b ∈ lines .backward edges [a] ↔ a ∈ lines .forward edges [b]) ∧
    (b ∈ lines .backward edges [a] ↔ ∃ s t, ReflTransGen (Flows edges) s t ∧ IsEnd edges t ∧
      (s.firstLine ≤ b ∧ b ≤ s.lastLine) ∧ t.firstLine ≤ a ∧ a ≤ t.lastLine) := by
  refine ⟨?_, mem_lines_backward⟩
  rw [mem_lines_backward, mem_lines_forward]
  constructor
  · rintro ⟨s, t, hchain, hend, hb, ha⟩
    exact ⟨s, t, hchain, (isEnd_iff_of_chain hchain).2 hend, hb, ha⟩
  · rintro ⟨s, t, hchain, hend, hb, ha⟩
    exact ⟨s, t, hchain, (isEnd_iff_of_chain hchain).1 hend, hb, ha⟩

end Slice
end Reaching
