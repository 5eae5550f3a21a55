/-
What every state of the analysis satisfies, whatever was called before and
wherever it was stopped.

A record holds only definitions that arrive at the end of its block, each once
and as some statement made it (`Session.Sound`). A visit keeps this, and so
does a run. Since what is recorded arrives, a visit finds again all that its
block's record holds (`Session.Sound.mem_result`): records only grow.
-/
import Reaching.Proofs.Worklist

namespace Reaching

variable {sites : List Site}

/-- A definition as a statement of some block made it. -/
def Made (sites : List Site) (d : Definition) : Prop :=
  ∃ b ∈ sites, ∃ e ∈ b.effects, d ∈ e.definitions

namespace Session

/-- The records are right as far as they go. -/
structure Sound (sites : List Site) (s : Session) : Prop where
  covers : s.Covers sites
  nodup : ∀ b ∈ sites, (s.record b.id).identities.Nodup
  made : ∀ b ∈ sites, ∀ d ∈ s.record b.id, Made sites d
  arrives : ∀ b ∈ sites, ∀ r ∈ (s.record b.id).identities, Arrives sites r b.bottom

theorem fresh_sound : Sound sites (fresh sites) where
  covers := fresh_covers
  nodup := fun b _ => by rw [fresh_record]; simp [Definitions.identities]
  made := fun b _ d hd => by rw [fresh_record] at hd; cases hd
  arrives := fun b _ r hr => by rw [fresh_record] at hr; cases hr

theorem mem_start {s : Session} {b : Site} {r : Reference} :
    r ∈ (s.start b).identities ↔
      r ∈ (s.record b.id).identities ∨ r ∈ (s.merged b.preds []).identities := by
  simp only [start, mem_identities_merged]
  simp [Definitions.identities]

/-- A visit finds what it would find without the block's own record, and what
that record holds of names that the block does not define. -/
theorem mem_result {s : Session} {b : Site} {r : Reference} :
    r ∈ (s.result b).identities ↔ r ∈ (outgoing b.effects (s.merged b.preds [])).identities ∨
      (r ∈ (s.record b.id).identities ∧ Clear b.effects r.name) := by
  rw [result, mem_identities_outgoing, @mem_identities_outgoing _ (s.merged b.preds []), mem_start]
  simp only [or_and_right, or_assoc]
  exact or_congr_right or_comm

theorem Sound.arrives_top (h : Linked sites) {s : Session} (hs : s.Sound sites) {b : Site}
    (hb : b ∈ sites) {r : Reference} (hr : r ∈ (s.merged b.preds []).identities) :
    Arrives sites r b.top := by
  rcases mem_identities_merged.1 hr with hr | ⟨i, hi, hr⟩
  · cases hr
  · obtain ⟨a, ha, rfl⟩ := h.resolved b hb i (.inl hi)
    exact Reaching.arrives_top.2 ⟨a, ha, (h.agree a ha b hb).2 hi, hs.arrives a ha r hr⟩

theorem Sound.arrives_result (h : Linked sites) {s : Session} (hs : s.Sound sites) {b : Site}
    (hb : b ∈ sites) {r : Reference} (hr : r ∈ (s.result b).identities) :
    Arrives sites r b.bottom := by
  rcases mem_result.1 hr with hr | ⟨hr, -⟩
  · refine arrives_of_mem_outgoing h hb (hs.arrives_top h hb) (Nat.le_refl _) ?_
    rwa [List.take_length]
  · exact hs.arrives b hb r hr

/-- A record holds only what a visit of the block would leave: what the block
makes, and names that it does not define. -/
def Fits (s : Session) (b : Site) : Prop :=
  ∀ r ∈ (s.record b.id).identities, r ∈ (outgoing b.effects []).identities ∨ Clear b.effects r.name

instance (s : Session) (b : Site) : Decidable (s.Fits b) :=
  inferInstanceAs (Decidable (∀ r ∈ (s.record b.id).identities,
    r ∈ (outgoing b.effects []).identities ∨ Clear b.effects r.name))

/-- **A visit finds again what a record that fits holds.** -/
theorem Fits.mem_result {s : Session} {b : Site} (hs : s.Fits b) {r : Reference}
    (hr : r ∈ (s.record b.id).identities) : r ∈ (s.result b).identities := by
  rw [result, mem_identities_outgoing]
  rcases hs r hr with hgen | hclear
  · exact .inl hgen
  · exact .inr ⟨mem_start.2 (.inl hr), hclear⟩

/-- After a visit the block's record fits. -/
theorem fits_visited {s : Session} (hs : s.Covers sites) {b : Site} (hb : b ∈ sites) :
    (s.visited b).Fits b := by
  intro r hr
  rw [mem_identities_visited_self hs hb, result, mem_identities_outgoing] at hr
  exact hr.imp_right And.right

/-- Only a visit of a block with the same number can make a record unfit. -/
theorem Fits.visited_of_ne {s : Session} {a b : Site} (hs : s.Fits a) (hne : a.id ≠ b.id) :
    (s.visited b).Fits a := by
  intro r hr
  rw [record_visited_of_ne hne] at hr
  exact hs r hr

theorem fresh_fits (b : Site) : (fresh sites).Fits b := fun r hr => by
  rw [fresh_record] at hr; cases hr

theorem Sound.fits (h : Linked sites) {s : Session} (hs : s.Sound sites) {b : Site}
    (hb : b ∈ sites) : s.Fits b := fun r hr =>
  ((arrives_bottom h hb).1 (hs.arrives b hb r hr)).imp_right And.right

theorem Sound.made_start (h : Linked sites) {s : Session} (hs : s.Sound sites) {b : Site}
    (hb : b ∈ sites) {d : Definition} (hd : d ∈ s.start b) : Made sites d := by
  rcases mem_of_mem_merged hd with hd | ⟨i, hi, hd⟩
  · exact hs.made b hb d hd
  · obtain ⟨a, ha, rfl⟩ := h.resolved b hb i (.inl hi)
    exact hs.made a ha d hd

theorem Sound.made_outgoing (h : Linked sites) {s : Session} (hs : s.Sound sites) {b : Site}
    (hb : b ∈ sites) {effects : List Effect} (heffects : ∀ e ∈ effects, e ∈ b.effects)
    {d : Definition} (hd : d ∈ outgoing effects (s.start b)) : Made sites d := by
  rcases mem_of_mem_outgoing hd with hd | ⟨e, he, hd⟩
  · exact hs.made_start h hb hd
  · exact ⟨b, hb, e, heffects e he, hd⟩

/-- **A visit keeps the records right.** -/
theorem Sound.visited (h : Linked sites) {s : Session} (hs : s.Sound sites) {b : Site}
    (hb : b ∈ sites) : (s.visited b).Sound sites := by
  have other : ∀ {a : Site}, a ∈ sites → a ≠ b → (s.visited b).record a.id = s.record a.id :=
    fun ha hne => record_visited_of_ne fun hid => hne (h.eq_of_id ha hb hid)
  refine ⟨hs.covers.visited b, ?_, ?_, ?_⟩
  · intro a ha
    by_cases hab : a = b
    · subst hab
      rcases record_visited_self hs.covers ha with ⟨-, hrec⟩ | ⟨-, hrec⟩ <;> rw [hrec]
      · exact hs.nodup a ha
      · exact nodup_identities_outgoing (nodup_identities_merged (hs.nodup a ha))
    · rw [other ha hab]
      exact hs.nodup a ha
  · intro a ha d hd
    by_cases hab : a = b
    · subst hab
      rcases record_visited_self hs.covers ha with ⟨-, hrec⟩ | ⟨-, hrec⟩ <;> rw [hrec] at hd
      · exact hs.made a ha d hd
      · exact hs.made_outgoing h ha (fun _ he => he) hd
    · rw [other ha hab] at hd
      exact hs.made a ha d hd
  · intro a ha r hr
    by_cases hab : a = b
    · subst hab
      exact hs.arrives_result h ha ((mem_identities_visited_self hs.covers ha).1 hr)
    · rw [other ha hab] at hr
      exact hs.arrives a ha r hr

theorem Later.sound (h : Linked sites) {s t : Session} (hl : Later sites s t) (hs : s.Sound sites) :
    t.Sound sites :=
  hl.keeps (fun hb hs => hs.visited h hb) hs

end Session

/-- A run keeps the records right. -/
theorem Run.sound (h : Linked sites) {s s' : Session} {waiting places waiting' : List Nat}
    (hrun : Run sites s waiting places s' waiting') (hs : s.Sound sites) : s'.Sound sites :=
  (hrun.later h.resolved hs.covers).sound h hs

end Reaching
