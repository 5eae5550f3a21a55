/-
A layout is read as its statements are run.

A word is read from a block by passing its statements and then control, up to a
block where the body is left (`Fragment.Reads`). Where a part of a layout stands
in a whole that does not interfere with it (`Embeds`), the words read from its
first block are those that a run of the part begins, and that are read on from
where control goes after the run (`Faithful`). This is shown form by form, both
directions at once: the runs of the parts are a parameter, and whole bodies follow
by induction once it is said what they run.
-/
import Reaching.Proofs.Region
import Reaching.Proofs.Runs

namespace Reaching

open Code Fragment

/-! ## Reading a layout -/

namespace Fragment

/-- Two fragments say the same about a block. -/
def SameAt (f g : Fragment) (a : BlockId) : Prop :=
  f.statementsOf a = g.statementsOf a ∧ (∀ b, f.Leads a b ↔ g.Leads a b) ∧
    (a ∈ f.returns ↔ a ∈ g.returns)

theorem SameAt.trans {f g h : Fragment} {a : BlockId} (hfg : f.SameAt g a) (hgh : g.SameAt h a) :
    f.SameAt h a :=
  ⟨hfg.1.trans hgh.1, fun b => (hfg.2.1 b).trans (hgh.2.1 b), hfg.2.2.trans hgh.2.2⟩

theorem sameAt_left {f g : Fragment} {a : BlockId} (h : ¬ g.Touches a) : (f ++ g).SameAt f a := by
  obtain ⟨hst, hleads, hreturns⟩ := untouched h
  simp [SameAt, hst, hleads, hreturns]

theorem sameAt_right {f g : Fragment} {a : BlockId} (h : ¬ f.Touches a) : (f ++ g).SameAt g a := by
  obtain ⟨hst, hleads, hreturns⟩ := untouched h
  simp [SameAt, hst, hleads, hreturns]

/-- In a block in which some statements are still to come, a word can be read up
to where the body is left. -/
inductive Reads (F : Fragment) : BlockId → List Stmt → List Stmt → Prop
  | leave {a : BlockId} : a ∈ F.returns → F.Reads a [] []
  | pass {a b : BlockId} {w : List Stmt} :
      F.Leads a b → F.Reads b (F.statementsOf b) w → F.Reads a [] w
  | read {a : BlockId} {s : Stmt} {rest w : List Stmt} : F.Reads a rest w → F.Reads a (s :: rest) (s :: w)

/-- A word can be read from the top of a block. -/
def ReadsFrom (F : Fragment) (a : BlockId) (w : List Stmt) : Prop := F.Reads a (F.statementsOf a) w

variable {F : Fragment} {a : BlockId} {w : List Stmt}

theorem reads_nil : F.Reads a [] w ↔ (a ∈ F.returns ∧ w = []) ∨ ∃ b, F.Leads a b ∧ F.ReadsFrom b w := by
  constructor
  · intro h
    cases h with
    | leave h => exact .inl ⟨h, rfl⟩
    | pass h hread => exact .inr ⟨_, h, hread⟩
  · rintro (⟨h, rfl⟩ | ⟨b, h, hread⟩)
    · exact .leave h
    · exact .pass h hread

theorem reads_cons {s : Stmt} {rest : List Stmt} :
    F.Reads a (s :: rest) w ↔ ∃ v, w = s :: v ∧ F.Reads a rest v := by
  constructor
  · intro h
    cases h with
    | read h => exact ⟨_, rfl, h⟩
  · rintro ⟨v, rfl, h⟩
    exact .read h

theorem reads_append {statements rest : List Stmt} :
    F.Reads a (statements ++ rest) w ↔ ∃ v, w = statements ++ v ∧ F.Reads a rest v := by
  induction statements generalizing w with
  | nil => simp
  | cons s statements ih =>
    rw [List.cons_append, reads_cons]
    constructor
    · rintro ⟨v, rfl, h⟩
      obtain ⟨t, rfl, hrest⟩ := ih.1 h
      exact ⟨t, rfl, hrest⟩
    · rintro ⟨t, rfl, h⟩
      exact ⟨statements ++ t, rfl, ih.2 ⟨t, rfl, h⟩⟩

/-- From the top of a block its own statements are read first. -/
theorem readsFrom_iff : F.ReadsFrom a w ↔ ∃ v, w = F.statementsOf a ++ v ∧ F.Reads a [] v := by
  have h := @reads_append F a w (F.statementsOf a) []
  rwa [List.append_nil] at h

/-- At the end of a block that leads to one other, reading goes on there. -/
theorem reads_nil_of_leads {b : BlockId} (hreturns : a ∉ F.returns)
    (hleads : ∀ c, F.Leads a c ↔ c = b) : F.Reads a [] w ↔ F.ReadsFrom b w := by
  rw [reads_nil]
  simp [hreturns, hleads]

end Fragment

/-! ## Parts of a layout -/

/-- A laid out part stands in a whole: its blocks are as the part has them, but
for what follows it in its last block. -/
structure Embeds (F : Fragment) (current fresh : BlockId) (laid : Laid) (rest : List Stmt) : Prop where
  inside : ∀ a, fresh ≤ a → a < laid.1.next fresh → a ≠ laid.2 → F.SameAt laid.1 a
  first : laid.2 ≠ current → (∀ b, F.Leads current b ↔ laid.1.Leads current b) ∧
    (current ∈ F.returns ↔ current ∈ laid.1.returns)
  after : laid.2 ≠ current → F.statementsOf laid.2 = laid.1.statementsOf laid.2 ++ rest

/-- What is read after a part, by the way in which a run leaves it. -/
def onward (F : Fragment) (loop : Option Loop) (last : BlockId) (rest : List Stmt) :
    Ending → List Stmt → Prop
  | .falls, w => F.Reads last rest w
  | .breaks, w => ∃ l, loop = some l ∧ F.ReadsFrom l.after w
  | .continues, w => ∃ l, loop = some l ∧ F.ReadsFrom l.guard w
  | .returns, w => w = []

/-- A laid out part is read as it is run. -/
def Faithful (loop : Option Loop) (current fresh : BlockId) (laid : Laid)
    (runs : List Stmt → Ending → Prop) : Prop :=
  ∀ F rest w, Embeds F current fresh laid rest →
    (F.Reads current (laid.1.statementsOf current ++ if current = laid.2 then rest else []) w ↔
      Then runs (onward F loop laid.2 rest) w)

/-- A list of statements is read as it is run, wherever it is laid out. -/
def AllFaithful (loop : Option Loop) (body : List Stmt) (runs : List Stmt → Ending → Prop) : Prop :=
  ∀ current fresh, current < fresh →
    Faithful loop current fresh (layOutAll loop current fresh body) runs

/-! What statements and their parts may run is a parameter from here on, together with the
equation that puts the runs of a statement together from those of its parts. -/

variable {loop : Option Loop} {current fresh : BlockId}
  {runs bodyRuns elseRuns restRuns casesRuns : List Stmt → Ending → Prop}

/-! ## Simple statements and jumps -/

theorem faithful_simple {s : Stmt} (hruns : ∀ k w, Then runs k w ↔ ∃ v, w = s :: v ∧ k .falls v) :
    Faithful loop current fresh (places current s, current) runs := by
  intro F rest w _
  rw [hruns]
  simp only [statementsOf_places, if_true, List.singleton_append]
  exact reads_cons

theorem faithful_ret (h : current < fresh) (span : Span) (value : Option Expr)
    (hruns : ∀ k w, Then runs k w ↔ ∃ v, w = .at span (.ret value) :: v ∧ k .returns v) :
    Faithful loop current fresh (layOut loop current fresh (.at span (.ret value))) runs := by
  intro F rest w hF
  have hne : current ≠ fresh := by lia
  have hleads : ∀ b, ¬ F.Leads current b := by
    intro b
    rw [(hF.first hne.symm).1 b]
    simp [layOut]
  have hreturns : current ∈ F.returns := by
    rw [(hF.first hne.symm).2]
    simp [layOut]
  rw [hruns]
  simp [layOut, statementsOf_places, hne, reads_cons, reads_nil, hleads, hreturns, onward]

theorem faithful_jump (h : current < fresh) {target : BlockId} {kind : TransferKind}
    {line : Int} {e : Ending} (hruns : ∀ k w, Then runs k w ↔ k e w)
    (he : ∀ F rest w, onward F loop fresh rest e w ↔ F.ReadsFrom target w) :
    Faithful loop current fresh (passes current target kind ++ opens .body line, fresh) runs := by
  intro F rest w hF
  have hne : current ≠ fresh := by lia
  have hleads : ∀ b, F.Leads current b ↔ b = target := by
    intro b
    rw [(hF.first hne.symm).1 b]
    simp
  have hreturns : current ∉ F.returns := by
    rw [(hF.first hne.symm).2]
    simp
  rw [hruns, he]
  simp only [statementsOf_append, statementsOf_passes, statementsOf_opens, hne, if_false,
    List.append_nil]
  exact reads_nil_of_leads hreturns hleads

/-! ## Statements one after another -/

theorem allFaithful_nil (hruns : ∀ k w, Then runs k w ↔ k .falls w) : AllFaithful loop [] runs := by
  intro current fresh _ F rest w _
  rw [hruns]
  simp [layOutAll, onward]

/-- The first of two parts stands in a whole in which both do. -/
theorem Embeds.first_part {f g F : Fragment} {mid last : BlockId} {after : List Stmt}
    (h : current < fresh) (hf : Lies loop current fresh (f, mid))
    (hg : Lies loop mid (f.next fresh) (g, last)) (hF : Embeds F current fresh (f ++ g, last) after) :
    Embeds F current fresh (f, mid) (g.statementsOf mid ++ if mid = last then after else []) := by
  obtain ⟨⟨hgt, -⟩, hgl, -⟩ := hg
  obtain ⟨-, hfl, -⟩ := hf
  have hgn := g.le_next (f.next fresh)
  dsimp only at hgt hgl hfl
  have hnot : ∀ a, a ≠ mid → a < f.next fresh → ¬ g.Touches a := fun a hne hlt ht => by
    have := hgt a ht
    lia
  refine ⟨fun a h1 h2 hne => ?_, fun hne => ?_, fun hne => ?_⟩
  · refine (hF.inside a h1 ?_ ?_).trans (sameAt_left (hnot a hne h2))
    · rw [next_append]
      lia
    · lia
  · obtain ⟨-, hleads, hreturns⟩ := sameAt_left (f := f) (hnot current hne.symm (by lia))
    obtain ⟨hFleads, hFreturns⟩ := hF.first (by lia)
    exact ⟨fun b => (hFleads b).trans (hleads b), hFreturns.trans hreturns⟩
  · by_cases hml : mid = last
    · subst hml
      rw [hF.after hne, statementsOf_append, if_pos rfl, List.append_assoc]
    · have hin := hF.inside mid (by lia) (by rw [next_append]; lia) hml
      rw [hin.1, statementsOf_append, if_neg hml, List.append_nil]

/-- The second of two parts stands in a whole in which both do. -/
theorem Embeds.second_part {f g F : Fragment} {mid last : BlockId} {after : List Stmt}
    (h : current < fresh) (hf : Lies loop current fresh (f, mid))
    (hg : Lies loop mid (f.next fresh) (g, last)) (hF : Embeds F current fresh (f ++ g, last) after) :
    Embeds F mid (f.next fresh) (g, last) after := by
  obtain ⟨-, hgl, -⟩ := hg
  obtain ⟨⟨hft, -⟩, hfl, hfo⟩ := hf
  have hfn := f.le_next fresh
  have hgn := g.le_next (f.next fresh)
  dsimp only at hft hfl hfo hgl
  have hnot : ∀ a, f.next fresh ≤ a → ¬ f.Touches a := fun a hle ht => by
    have := hft a ht
    lia
  refine ⟨fun a h1 h2 hne => ?_, fun hne => ?_, fun hne => ?_⟩
  · refine (hF.inside a (by lia) ?_ hne).trans (sameAt_right (hnot a h1))
    rw [next_append]
    exact h2
  · have hboth : (∀ b, F.Leads mid b ↔ (f ++ g).Leads mid b) ∧ (mid ∈ F.returns ↔ mid ∈ (f ++ g).returns) := by
      rcases hfl with rfl | hin
      · exact hF.first hne
      · exact (hF.inside mid hin.1 (by rw [next_append]; lia) hne.symm).2
    refine ⟨fun b => (hboth.1 b).trans ?_, hboth.2.trans ?_⟩
    · exact leads_append.trans (or_iff_right fun hl => hfo hl.leaves)
    · exact mem_returns_append.trans (or_iff_right fun hr => hfo (leaves_of_mem_returns hr))
  · rw [hF.after (by lia), statementsOf_append, statementsOf_eq_nil (hnot last (by lia)), List.nil_append]

theorem allFaithful_cons {s : Stmt} {rest : List Stmt} {sRuns : List Stmt → Ending → Prop}
    (hs : ∀ current fresh, current < fresh →
      Faithful loop current fresh (layOut loop current fresh s) sRuns)
    (hrest : AllFaithful loop rest restRuns)
    (hruns : ∀ k w, Then runs k w ↔ Then sRuns (andThen restRuns k) w) :
    AllFaithful loop (s :: rest) runs := by
  intro current fresh h
  have hf := layOut_lies loop s current fresh h
  have hfaithful := hs current fresh h
  cases hlaid : layOut loop current fresh s with
  | mk f mid =>
    rw [hlaid] at hf hfaithful
    have hfl := hf.last
    have hfn := f.le_next fresh
    have hmid : mid < f.next fresh := by
      dsimp only at hfl
      lia
    have hg := layOutAll_lies loop rest mid (f.next fresh) hmid
    have hgfaithful := hrest mid (f.next fresh) hmid
    cases hlaid' : layOutAll loop mid (f.next fresh) rest with
    | mk g last =>
      rw [hlaid'] at hg hgfaithful
      intro F after w hF
      simp only [layOutAll, hlaid, hlaid'] at hF ⊢
      have hstart : (f ++ g).statementsOf current ++ (if current = last then after else []) =
          f.statementsOf current ++
            if current = mid then g.statementsOf mid ++ if mid = last then after else [] else [] := by
        by_cases hcur : current = mid
        · rw [if_pos hcur, hcur, statementsOf_append, List.append_assoc]
        · have hnot : ¬ g.Touches current := fun ht => by
            have := hg.within.touches current ht
            lia
          have hne : current ≠ last := by
            have := hg.last
            dsimp only at this
            lia
          rw [if_neg hcur, if_neg hne, statementsOf_append, statementsOf_eq_nil hnot, List.append_nil]
      rw [hruns, hstart, hfaithful F _ w (hF.first_part h hf hg)]
      refine then_congr fun e v _ => ?_
      cases e with
      | falls => exact hgfaithful F after v (hF.second_part h hf hg)
      | _ => exact Iff.rfl

/-! ## Statements with parts -/

/-- **A part that is closed off** in a whole: at its end control passes to one
other block, and nothing else in the whole touches it. -/
theorem Faithful.closed {p F : Fragment} {last target : BlockId} {runs : List Stmt → Ending → Prop}
    {w : List Stmt} (hp : Faithful loop current fresh (p, last) runs)
    (hlies : Lies loop current fresh (p, last))
    (hF : ∀ a, a = current ∨ (fresh ≤ a ∧ a < p.next fresh) →
      F.SameAt (p ++ passes last target .unconditional) a) :
    F.ReadsFrom current w ↔ Then runs (onward F loop target (F.statementsOf target)) w := by
  have hpart : ∀ a, a = current ∨ (fresh ≤ a ∧ a < p.next fresh) → a ≠ last → F.SameAt p a :=
    fun a ha hne => (hF a ha).trans (sameAt_left fun ht => hne (touches_passes.1 ht))
  have hstatements : ∀ a, a = current ∨ (fresh ≤ a ∧ a < p.next fresh) →
      F.statementsOf a = p.statementsOf a := fun a ha => (hF a ha).1.trans (by simp)
  have hE : Embeds F current fresh (p, last) [] :=
    ⟨fun a h1 h2 hne => hpart a (.inr ⟨h1, h2⟩) hne, fun hne => (hpart current (.inl rfl) hne.symm).2,
      fun hne => by rw [List.append_nil]; exact hstatements last hlies.last⟩
  obtain ⟨-, hleads, hreturns⟩ := hF last hlies.last
  have hread := hp F [] w hE
  rw [ite_self, List.append_nil] at hread
  rw [ReadsFrom, hstatements current (.inl rfl), hread]
  refine then_congr fun e v _ => ?_
  cases e with
  | falls =>
    refine reads_nil_of_leads ?_ fun b => ?_
    · rw [hreturns, mem_returns_append]
      rintro (hr | hr)
      · exact hlies.isOpen (leaves_of_mem_returns hr)
      · cases hr
    · have hno : ¬ p.Leads last b := fun hl => hlies.isOpen hl.leaves
      rw [hleads, leads_append, leads_passes]
      simp [hno]
  | _ => exact Iff.rfl

/-- A part that is closed off inside of another part. -/
theorem Faithful.readsFrom {f p F : Fragment} {c m last target partEnd : BlockId} {inner : Option Loop}
    {runs : List Stmt → Ending → Prop} {after w : List Stmt}
    (hp : Faithful inner c m (p, partEnd) runs) (hlies : Lies inner c m (p, partEnd))
    (hF : Embeds F current fresh (f, last) after)
    (hin : ∀ a, a = c ∨ (m ≤ a ∧ a < p.next m) → fresh ≤ a ∧ a < f.next fresh ∧ a ≠ last)
    (hsame : ∀ a, a = c ∨ (m ≤ a ∧ a < p.next m) →
      f.SameAt (p ++ passes partEnd target .unconditional) a) :
    F.ReadsFrom c w ↔ Then runs (onward F inner target (F.statementsOf target)) w := by
  refine hp.closed hlies fun a ha => ?_
  obtain ⟨h1, h2, h3⟩ := hin a ha
  exact (hF.inside a h1 h2 h3).trans (hsame a ha)

/-! ## `else` parts -/

/-- An `else` part is not read in the block before it. -/
theorem elsePart_before (loop : Option Loop) {before fresh : BlockId} (after : BlockId)
    (kind : TransferKind) (text : Option String) (orelse : List Stmt) (h : before < fresh) :
    (elsePart loop before after fresh kind text orelse).statementsOf before = [] ∧
      before ∉ (elsePart loop before after fresh kind text orelse).returns := by
  cases orelse with
  | nil => simp [elsePart]
  | cons s rest =>
    have ho := layOutAll_lies loop (s :: rest) fresh (fresh + 1) (by lia)
    cases hol : layOutAll loop fresh (fresh + 1) (s :: rest) with
    | mk o last =>
      rw [hol] at ho
      obtain ⟨hst, -, hreturns⟩ := untouched (f := o) (a := before) fun ht => by
        have := ho.within.touches before ht
        lia
      simp [elsePart, hol, hst, hreturns]

/-- An `else` part that stands in a whole is read as it is run, from where the
block before it leads. -/
theorem elsePart_reads {before fresh : BlockId} (after : BlockId) (kind : TransferKind)
    (text : Option String) {orelse : List Stmt} (hbefore : before < fresh)
    (horelse : AllFaithful loop orelse elseRuns) (F : Fragment) (w : List Stmt)
    (hF : ∀ a, fresh ≤ a → a < (elsePart loop before after fresh kind text orelse).next fresh →
      F.SameAt (elsePart loop before after fresh kind text orelse) a) :
    (∃ a, (elsePart loop before after fresh kind text orelse).Leads before a ∧ F.ReadsFrom a w) ↔
      Then elseRuns (onward F loop after (F.statementsOf after)) w := by
  cases orelse with
  | nil =>
    have hE : Embeds F after (after + 1) (layOutAll loop after (after + 1) []) (F.statementsOf after) :=
      ⟨fun a h1 h2 => by simp [layOutAll] at h2; lia, fun hne => absurd rfl hne, fun hne => absurd rfl hne⟩
    have hread := horelse after (after + 1) (by lia) F _ w hE
    simpa [elsePart, layOutAll, ReadsFrom] using hread
  | cons s rest =>
    have ho := layOutAll_lies loop (s :: rest) fresh (fresh + 1) (by lia)
    have hof := horelse fresh (fresh + 1) (by lia)
    cases hol : layOutAll loop fresh (fresh + 1) (s :: rest) with
    | mk o last =>
      rw [hol] at ho hof
      have hoend := ho.last
      have hon := o.le_next (fresh + 1)
      dsimp only at hoend
      simp only [elsePart, hol, next_append, next_opens, next_passes] at hF ⊢
      have hread : F.ReadsFrom fresh w ↔ Then elseRuns (onward F loop after (F.statementsOf after)) w := by
        refine hof.closed ho fun a ha => (hF a (by lia) (by lia)).trans ?_
        have hcur : a ≠ before := by lia
        simp [SameAt, hcur]
      obtain ⟨-, hleads, -⟩ := untouched (f := o) (a := before) fun ht => by
        have := ho.within.touches before ht
        lia
      have hne : before ≠ last := by lia
      simp [hleads, hne, hread]

/-! ## Branches and loops -/

theorem faithful_ifElse (h : current < fresh) (span : Span) (test : Expr) {body orelse : List Stmt}
    (hbody : AllFaithful loop body bodyRuns) (horelse : AllFaithful loop orelse elseRuns)
    (hruns : ∀ k w, Then runs k w ↔
      ∃ v, w = testHeader test :: v ∧ (Then bodyRuns k v ∨ Then elseRuns k v)) :
    Faithful loop current fresh (layOut loop current fresh (.at span (.ifElse test body orelse))) runs := by
  have hb := layOutAll_lies loop body fresh (fresh + 2) (by lia)
  have hbf := hbody fresh (fresh + 2) (by lia)
  cases hbl : layOutAll loop fresh (fresh + 2) body with
  | mk b bodyEnd =>
    rw [hbl] at hb hbf
    have hbend := hb.last
    have hbn := b.le_next (fresh + 2)
    dsimp only at hbend
    have hnotb : ∀ a, a ≠ fresh → a < fresh + 2 ∨ b.next (fresh + 2) ≤ a → ¬ b.Touches a := by
      intro a hne hout ht
      have := hb.within.touches a ht
      lia
    have ho := elsePart_within current (fresh + 1) (b.next (fresh + 2)) .whenFalse
      (some (negated (conditionText test))) (layOutAll_lies loop orelse)
    have hbefore : current < b.next (fresh + 2) := by lia
    have hobefore := elsePart_before loop (fresh + 1) .whenFalse (some (negated (conditionText test)))
      orelse hbefore
    have horeads := elsePart_reads (fresh + 1) .whenFalse (some (negated (conditionText test)))
      hbefore horelse
    rw [layOut_ifElse span test orelse hbl]
    generalize elsePart loop current (fresh + 1) (b.next (fresh + 2)) .whenFalse
      (some (negated (conditionText test))) orelse = o at ho hobefore horeads ⊢
    have hon := o.le_next (b.next (fresh + 2))
    have hnoto : ∀ a, a ≠ current → a < b.next (fresh + 2) → ¬ o.Touches a := by
      intro a hne hlt ht
      have := ho.touches a ht
      lia
    have hne : current ≠ fresh + 1 := by lia
    have hneb : current ≠ bodyEnd := by lia
    obtain ⟨hbst, hbleads, hbreturns⟩ := untouched (hnotb current (by lia) (.inl (by lia)))
    intro F after w hF
    have hmerge : F.statementsOf (fresh + 1) = after := by
      have hbmerge := statementsOf_eq_nil (hnotb (fresh + 1) (by lia) (.inl (by lia)))
      have homerge := statementsOf_eq_nil (hnoto (fresh + 1) (by lia) (by lia))
      rw [hF.after hne.symm]
      simp [statementsOf_places, hne, hbmerge, homerge]
    have hthen : ∀ v, F.ReadsFrom fresh v ↔ Then bodyRuns (onward F loop (fresh + 1) after) v := by
      intro v
      rw [← hmerge]
      refine hbf.readsFrom hb hF (fun a ha => ?_) (fun a ha => ?_)
      · simp [next_append, Int.add_assoc]
        lia
      · have hcur : a ≠ current := by lia
        obtain ⟨host, holeads, horeturns⟩ := untouched (hnoto a (by lia) (by lia))
        simp [SameAt, statementsOf_places, hcur, hcur.symm, host, holeads, horeturns]
    have helse : ∀ v, (∃ a, o.Leads current a ∧ F.ReadsFrom a v) ↔
        Then elseRuns (onward F loop (fresh + 1) after) v := by
      intro v
      rw [← hmerge]
      refine horeads F v fun a h1 h2 => (hF.inside a (by lia) ?_ (by dsimp only; lia)).trans ?_
      · simpa [next_append, Int.add_assoc] using h2
      · have hcur : a ≠ current ∧ a ≠ bodyEnd := by lia
        obtain ⟨hst, hleads, hreturns⟩ := untouched (hnotb a (by lia) (.inr h1))
        simp [SameAt, statementsOf_places, hcur, hcur.1.symm, hst, hleads, hreturns]
    have hpass : ∀ a, F.Leads current a ↔ a = fresh ∨ o.Leads current a := by
      intro a
      rw [(hF.first hne.symm).1]
      simp [hbleads, hneb]
    have hstay : current ∉ F.returns := by
      rw [(hF.first hne.symm).2]
      simp [hbreturns, hobefore.2]
    rw [hruns]
    simp [statementsOf_places, hbst, hobefore.1, hne, reads_cons, reads_nil, hpass, hstay, or_and_right,
      exists_or, hthen, helse]

/-- What is read after the body of a loop is read from its guard, or after the loop. -/
theorem onward_loop {F : Fragment} {guard exit : BlockId} {after : List Stmt}
    (hexit : F.statementsOf exit = after) (e : Ending) (w : List Stmt) :
    onward F (some ⟨guard, exit⟩) guard (F.statementsOf guard) e w ↔
      turn (F.ReadsFrom guard) (onward F loop exit after) e w := by
  cases e with
  | falls => exact Iff.rfl
  | breaks => simp [onward, turn, ReadsFrom, hexit]
  | continues => simp [onward, turn]
  | returns => exact Iff.rfl

theorem faithful_loop (h : current < fresh) (header : Stmt) (links : LoopLinks) (span : Span)
    (bodyLine : Int) {body orelse : List Stmt} (hbody : ∀ inner, AllFaithful (some inner) body bodyRuns)
    (horelse : AllFaithful loop orelse elseRuns)
    (hruns : ∀ k w, Then runs k w ↔
      ∃ v, w = header :: v ∧ (Then elseRuns k v ∨ Then bodyRuns (turn (Then runs k) k) v)) :
    Faithful loop current fresh
      (layOutLoop header links span bodyLine (orelse.head?.map (·.span.firstLine))
        (fun inner c f => layOutAll (some inner) c f body) (fun _ c f => layOutAll loop c f orelse)
        current fresh)
      runs := by
  have hb := layOutAll_lies (some ⟨fresh, fresh + 1⟩) body (fresh + 2) (fresh + 3) (by lia)
  have hbf := hbody ⟨fresh, fresh + 1⟩ (fresh + 2) (fresh + 3) (by lia)
  cases hbl : layOutAll (some ⟨fresh, fresh + 1⟩) (fresh + 2) (fresh + 3) body with
  | mk b bodyEnd =>
    rw [hbl] at hb hbf
    have hbend := hb.last
    have hbn := b.le_next (fresh + 3)
    dsimp only at hbend
    have hnotb : ∀ a, a < fresh + 2 ∨ b.next (fresh + 3) ≤ a → ¬ b.Touches a := by
      intro a hout ht
      have := hb.within.touches a ht
      lia
    have ho := elsePart_within fresh (fresh + 1) (b.next (fresh + 3)) links.leave links.leaveText
      (layOutAll_lies loop orelse)
    have hbefore : fresh < b.next (fresh + 3) := by lia
    have hobefore := elsePart_before loop (fresh + 1) links.leave links.leaveText orelse hbefore
    have horeads := elsePart_reads (fresh + 1) links.leave links.leaveText hbefore horelse
    rw [layOutLoop_eq header links span bodyLine orelse hbl]
    generalize elsePart loop fresh (fresh + 1) (b.next (fresh + 3)) links.leave links.leaveText
      orelse = o at ho hobefore horeads ⊢
    have hon := o.le_next (b.next (fresh + 3))
    have hnoto : ∀ a, a ≠ fresh → a < b.next (fresh + 3) → ¬ o.Touches a := by
      intro a hne hlt ht
      have := ho.touches a ht
      lia
    have hne : current ≠ fresh + 1 ∧ current ≠ fresh := by lia
    have hself : fresh ≠ fresh + 1 := by lia
    have hneb : current ≠ bodyEnd ∧ fresh ≠ bodyEnd := by lia
    obtain ⟨hbst, hbleads, hbreturns⟩ := untouched (hnotb current (.inl (by lia)))
    obtain ⟨hbgst, hbgleads, hbgreturns⟩ := untouched (hnotb fresh (.inl (by lia)))
    obtain ⟨host, holeads, horeturns⟩ := untouched (hnoto current hne.2 (by lia))
    intro F after w hF
    have hexit : F.statementsOf (fresh + 1) = after := by
      have hbexit := statementsOf_eq_nil (hnotb (fresh + 1) (.inl (by lia)))
      have hoexit := statementsOf_eq_nil (hnoto (fresh + 1) (by lia) (by lia))
      rw [hF.after hne.1.symm]
      simp [statementsOf_places, hbexit, hoexit, hself]
    have hguard := hF.inside fresh (Int.le_refl _)
      (by simp [next_append, Int.add_assoc]; lia) (by dsimp only; lia)
    have hturn : ∀ v, F.ReadsFrom (fresh + 2) v ↔
        Then bodyRuns (turn (F.ReadsFrom fresh) (onward F loop (fresh + 1) after)) v := by
      intro v
      rw [← then_congr fun e u _ => onward_loop hexit e u]
      refine hbf.readsFrom hb hF (fun a ha => ?_) (fun a ha => ?_)
      · simp [next_append, Int.add_assoc]
        lia
      · have hcur : a ≠ current ∧ a ≠ fresh := by lia
        obtain ⟨hst, hleads, hreturns⟩ := untouched (hnoto a (by lia) (by lia))
        simp [SameAt, statementsOf_places, hcur, hcur.2.symm, hst, hleads, hreturns]
    have helse : ∀ v, (∃ a, o.Leads fresh a ∧ F.ReadsFrom a v) ↔
        Then elseRuns (onward F loop (fresh + 1) after) v := by
      intro v
      rw [← hexit]
      refine horeads F v fun a h1 h2 => (hF.inside a (by lia) ?_ (by dsimp only; lia)).trans ?_
      · simpa [next_append, Int.add_assoc] using h2
      · have hcur : a ≠ current ∧ a ≠ fresh ∧ a ≠ bodyEnd := by lia
        obtain ⟨hst, hleads, hreturns⟩ := untouched (hnotb a (.inr h1))
        simp [SameAt, statementsOf_places, hcur, hcur.2.1.symm, hst, hleads, hreturns]
    have hloop : ∀ v, F.ReadsFrom fresh v ↔ Then runs (onward F loop (fresh + 1) after) v := by
      refine eq_of_turns (fun v => ?_) (hruns _)
      rw [ReadsFrom, hguard.1]
      simp [statementsOf_places, hbgst, hobefore.1, reads_cons, reads_nil, hguard.2.1, hguard.2.2,
        hne.2.symm, hneb, hbgleads, hbgreturns, hobefore.2, or_and_right, exists_or, hturn, helse, or_comm]
    have hpass : ∀ a, F.Leads current a ↔ a = fresh := by
      intro a
      rw [(hF.first hne.1.symm).1]
      simp [hbleads, holeads, hneb, hne]
    have hstay : current ∉ F.returns := by
      rw [(hF.first hne.1.symm).2]
      simp [hbreturns, horeturns]
    rw [← hloop]
    simp [statementsOf_places, hbst, host, hne, hne.2.symm, reads_nil, hpass, hstay]

/-- A part behind headers in the same block. -/
theorem Faithful.placing {b : Fragment} {last : BlockId} (h : current < fresh)
    (hb : Faithful loop current fresh (b, last) bodyRuns) {headers : List Stmt}
    (hruns : ∀ k w, Then runs k w ↔ ∃ v, w = headers ++ v ∧ Then bodyRuns k v) :
    Faithful loop current fresh (placing {} current headers ++ b, last) runs := by
  intro F after w hF
  have hE : Embeds F current fresh (b, last) after := by
    refine ⟨fun a h1 h2 hne => ?_, fun hne => ?_, fun hne => ?_⟩
    · refine (hF.inside a h1 (by simpa [next_append] using h2) hne).trans (sameAt_right fun ht => ?_)
      rcases touches_placing ht with rfl | ht
      · lia
      · exact touches_empty ht
    · simpa using hF.first hne
    · rw [hF.after hne, statementsOf_append, statementsOf_placing, if_neg (Ne.symm hne)]
      rfl
  rw [hruns, statementsOf_append, statementsOf_placing, if_pos rfl, statementsOf_empty,
    List.nil_append, List.append_assoc, reads_append]
  exact exists_congr fun v => and_congr_right fun _ => hb F after v hE

theorem faithful_with (h : current < fresh) (span : Span) (isAsync : Bool) (items : List WithItem)
    {body : List Stmt} (hbody : AllFaithful loop body bodyRuns)
    (hruns : ∀ k w, Then runs k w ↔ ∃ v, w = itemHeaders items ++ v ∧ Then bodyRuns k v) :
    Faithful loop current fresh (layOut loop current fresh (.at span (.withItems isAsync items body)))
      runs := by
  rw [layOut_withItems span isAsync items rfl, ← itemHeaders]
  exact (hbody current fresh h).placing h hruns

/-! ## Cases -/

/-- Cases that stand in a whole are read as one of them is run. -/
def CasesFaithful (loop : Option Loop) (cases : List Case) (runs : List Stmt → Ending → Prop) : Prop :=
  ∀ branch exit fresh F w, branch < fresh → exit < fresh →
    (∀ a, fresh ≤ a → a < (layOutCases loop branch exit fresh cases).next fresh →
      Fragment.SameAt F (layOutCases loop branch exit fresh cases) a) →
    ((∃ a, (layOutCases loop branch exit fresh cases).Leads branch a ∧ F.ReadsFrom a w) ↔
      Then runs (onward F loop exit (F.statementsOf exit)) w)

theorem casesFaithful_nil (hruns : ∀ k w, ¬ Then runs k w) : CasesFaithful loop [] runs := by
  intro branch exit fresh F w _ _ _
  simp [layOutCases, hruns]

theorem casesFaithful_cons (p : Code.Pattern) (guard : Option Expr) {body : List Stmt} {rest : List Case}
    (hbody : AllFaithful loop body bodyRuns) (hrest : CasesFaithful loop rest restRuns)
    (hruns : ∀ k w, Then runs k w ↔ Then bodyRuns k w ∨ Then restRuns k w) :
    CasesFaithful loop (.of p guard body :: rest) runs := by
  intro branch exit fresh F w hbranch hexit hF
  have hb := layOutAll_lies loop body fresh (fresh + 1) (by lia)
  have hbf := hbody fresh (fresh + 1) (by lia)
  cases hbl : layOutAll loop fresh (fresh + 1) body with
  | mk b last =>
    rw [hbl] at hb hbf
    have hbend := hb.last
    have hbn := b.le_next (fresh + 1)
    dsimp only at hbend
    have hnotb : ∀ a, a < fresh ∨ b.next (fresh + 1) ≤ a → ¬ b.Touches a := fun a hout ht => by
      have := hb.within.touches a ht
      lia
    have hr := layOutCases_lie loop rest branch exit (b.next (fresh + 1)) (by lia)
    have hrf := hrest branch exit (b.next (fresh + 1)) F w (by lia) (by lia)
    simp only [layOutCases, hbl, next_append, next_decides, next_opens, next_passes] at hF ⊢
    generalize layOutCases loop branch exit (b.next (fresh + 1)) rest = r at hr hrf hF ⊢
    have hrn := r.le_next (b.next (fresh + 1))
    have hnotr : ∀ a, a ≠ branch → a < b.next (fresh + 1) → ¬ r.Touches a := fun a hne hlt ht => by
      have := hr.touches a ht
      lia
    have hfirst : F.ReadsFrom fresh w ↔ Then bodyRuns (onward F loop exit (F.statementsOf exit)) w := by
      refine hbf.closed hb fun a ha => ?_
      refine (hF a (by lia) (by lia)).trans ((sameAt_left (hnotr a (by lia) (by lia))).trans ?_)
      have hcur : a ≠ branch := by lia
      simp [SameAt, hcur]
    have hothers := hrf fun a h1 h2 => by
      refine (hF a (by lia) h2).trans (sameAt_right ?_)
      simp only [touches_append, touches_decides, touches_opens, touches_passes, false_or, or_false]
      have := hnotb a (.inr h1)
      grind
    have hbranch' : ∀ a, ¬ b.Leads branch a := (untouched (hnotb branch (.inl hbranch))).2.1
    have hne : branch ≠ last := by lia
    simp [hbranch', hne, or_and_right, exists_or, hothers, hfirst, hruns]

/-- Cases place nothing in the block of the subject, and the body is not left there. -/
theorem layOutCases_branch (loop : Option Loop) (branch exit : BlockId) (cases : List Case) :
    ∀ fresh, branch < fresh → (layOutCases loop branch exit fresh cases).statementsOf branch = [] ∧
      branch ∉ (layOutCases loop branch exit fresh cases).returns := by
  induction cases with
  | nil => simp [layOutCases]
  | cons c rest ih =>
    intro fresh h
    obtain ⟨p, guard, body⟩ := c
    have hb := layOutAll_lies loop body fresh (fresh + 1) (by lia)
    cases hbl : layOutAll loop fresh (fresh + 1) body with
    | mk b last =>
      rw [hbl] at hb
      have hbn := b.le_next (fresh + 1)
      obtain ⟨hst, -, hreturns⟩ := untouched (f := b) (a := branch) fun ht => by
        have := hb.within.touches branch ht
        lia
      have hrest := ih (b.next (fresh + 1)) (by lia)
      simp [layOutCases, hbl, next_append, hst, hreturns, hrest]

theorem faithful_match (h : current < fresh) (span : Span) (subject : Expr) {cases : List Case}
    (hcases : CasesFaithful loop cases casesRuns)
    (hruns : ∀ k w, Then runs k w ↔
      ∃ v, w = testHeader subject :: v ∧ (Then casesRuns k v ∨ k .falls v)) :
    Faithful loop current fresh (layOut loop current fresh (.at span (.matchCases subject cases))) runs := by
  have hne : current ≠ fresh := by lia
  have hc := layOutCases_lie loop cases current fresh (fresh + 1) (by lia)
  obtain ⟨hcst, hcreturns⟩ := layOutCases_branch loop current fresh cases (fresh + 1) (by lia)
  intro F after w hF
  have hcf := fun v => hcases current fresh (fresh + 1) F v (by lia) (by lia)
  simp only [layOut] at hF ⊢
  generalize layOutCases loop current fresh (fresh + 1) cases = c at hc hcst hcreturns hcf hF ⊢
  have hcn := c.le_next (fresh + 1)
  have hnot : ¬ c.Touches fresh := fun ht => by
    have := hc.touches fresh ht
    lia
  have hexit : F.statementsOf fresh = after := by
    rw [hF.after hne.symm]
    simp [statementsOf_places, hne, statementsOf_eq_nil hnot]
  have hsome : ∀ v, (∃ a, c.Leads current a ∧ F.ReadsFrom a v) ↔
      Then casesRuns (onward F loop fresh after) v := by
    intro v
    rw [← hexit]
    refine hcf v fun a h1 h2 => (hF.inside a (by lia) ?_ (by dsimp only; lia)).trans ?_
    · simpa [next_append] using h2
    · have hcur : a ≠ current := by lia
      simp [SameAt, statementsOf_places, hcur, hcur.symm]
  have hnone : ∀ v, F.ReadsFrom fresh v ↔ F.Reads fresh after v := by
    intro v
    rw [ReadsFrom, hexit]
  have hpass : ∀ a, F.Leads current a ↔ c.Leads current a ∨ a = fresh := by
    intro a
    rw [(hF.first hne.symm).1]
    simp
  have hstay : current ∉ F.returns := by
    rw [(hF.first hne.symm).2]
    simp [hcreturns]
  rw [hruns]
  simp [statementsOf_places, hcst, hne, reads_cons, reads_nil, hpass, hstay, or_and_right, exists_or,
    hsome, hnone, onward]

end Reaching
