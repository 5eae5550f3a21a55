/-
The analysis comes to an end, wherever earlier calls have left it.

Links lead to blocks; nothing else is asked of them, and blocks may share a
number. A record holds nothing but what statements make (`Session.Bounded`), so
it cannot grow for ever. While it fits its block it only grows. It can become
unfit when a block is visited whose number means another one, which happens once
a call for each such block. The changes that may still come are counted by
`Session.changesLeft`, and the blocks that come to wait are paid for by them
(`potential_visited`). So every bounded state has a run to the end, which is a
call of the analysis (`exists_run`).
-/
import Mathlib.Data.Finset.Card
import Reaching.Proofs.Settled

namespace Reaching

variable {sites : List Site}

/-! ## Sums over blocks -/

theorem total_le_total {α : Type} {f g : α → Nat} :
    ∀ {items : List α}, (∀ a ∈ items, g a ≤ f a) → total g items ≤ total f items
  | [], _ => Nat.le_refl _
  | a :: items, h => by
    simp only [total, List.foldr_cons]
    have ha := h a (List.mem_cons_self ..)
    have hrest := total_le_total fun b hb => h b (List.mem_cons_of_mem _ hb)
    simp only [total] at hrest
    omega

/-- A sum of which no part grows and one part shrinks by an amount shrinks by it. -/
theorem total_add_le_total {α : Type} {f g : α → Nat} {k : Nat} {x : α} :
    ∀ {items : List α}, (∀ a ∈ items, g a ≤ f a) → x ∈ items → g x + k ≤ f x →
      total g items + k ≤ total f items
  | [], _, hx, _ => by cases hx
  | a :: items, h, hx, hk => by
    simp only [total, List.foldr_cons]
    rcases List.mem_cons.1 hx with rfl | hx
    · have hrest := total_le_total fun b hb => h b (List.mem_cons_of_mem _ hb)
      simp only [total] at hrest
      omega
    · have hrest := total_add_le_total (fun b hb => h b (List.mem_cons_of_mem _ hb)) hx hk
      have ha := h a (List.mem_cons_self ..)
      simp only [total] at hrest
      omega

theorem total_mul_right {α : Type} (f : α → Nat) (k : Nat) (items : List α) :
    total (fun a => f a * k) items = total f items * k := by
  induction items with
  | nil => simp [total]
  | cons a items ih =>
    simp only [total, List.foldr_cons] at ih ⊢
    rw [ih, Nat.add_mul]

theorem length_flatMap_eq_total {α β : Type} (f : α → List β) (items : List α) :
    (items.flatMap f).length = total (fun a => (f a).length) items := by
  induction items with
  | nil => rfl
  | cons a items ih =>
    simp only [total, List.flatMap_cons, List.length_append, List.foldr_cons] at ih ⊢
    omega

/-! ## Identities that can be recorded -/

/-- The identities of the definitions that statements make. -/
def identitiesMade (sites : List Site) : List Reference :=
  sites.flatMap fun b => b.effects.flatMap fun e => e.definitions.identities

/-- The number of distinct identities that statements make. -/
def distinctMade (sites : List Site) : Nat := (identitiesMade sites).toFinset.card

theorem Arrives.mem_identitiesMade {r : Reference} {p : Point} (h : Arrives sites r p) :
    r ∈ identitiesMade sites := by
  obtain ⟨-, b, hb, i, e, he, -, hmakes, -⟩ := h
  exact List.mem_flatMap.2 ⟨b, hb, List.mem_flatMap.2 ⟨e, List.mem_of_getElem? he, hmakes⟩⟩

/-- A set of definitions that statements make is never longer than there are
distinct identities. -/
theorem length_le_distinctMade {ds : Definitions} (hnodup : ds.identities.Nodup)
    (hmade : ∀ r ∈ ds.identities, r ∈ identitiesMade sites) : ds.length ≤ distinctMade sites := by
  have hsub : ds.identities.toFinset ⊆ (identitiesMade sites).toFinset := by
    intro r hr
    rw [List.mem_toFinset] at hr ⊢
    exact hmade r hr
  have hcard := Finset.card_le_card hsub
  rw [List.toFinset_card_of_nodup hnodup, Definitions.identities, List.length_map] at hcard
  exact hcard

/-- A set with all identities of another one, and not the same, is longer. -/
theorem length_lt_of_not_sameAs {ds es : Definitions} (hds : ds.identities.Nodup)
    (hes : es.identities.Nodup) (hsub : ∀ r ∈ es.identities, r ∈ ds.identities)
    (hdiff : ds.sameAs es = false) : es.length < ds.length := by
  have hssub : es.identities.toFinset ⊂ ds.identities.toFinset := by
    refine Finset.ssubset_iff_subset_ne.2 ⟨fun r hr => ?_, fun heq => ?_⟩
    · rw [List.mem_toFinset] at hr ⊢
      exact hsub r hr
    · have hsame : ds.sameAs es = true := by
        rw [Definitions.sameAs_iff]
        intro r
        rw [← List.mem_toFinset, ← List.mem_toFinset, heq]
      simp [hsame] at hdiff
  have hcard := Finset.card_lt_card hssub
  rw [List.toFinset_card_of_nodup hes, List.toFinset_card_of_nodup hds] at hcard
  simpa [Definitions.identities] using hcard

namespace Session

/-- The records hold definitions that statements make, each once. -/
structure Bounded (sites : List Site) (s : Session) : Prop where
  covers : s.Covers sites
  nodup : ∀ b ∈ sites, (s.record b.id).identities.Nodup
  made : ∀ b ∈ sites, ∀ r ∈ (s.record b.id).identities, r ∈ identitiesMade sites

theorem fresh_bounded : Bounded sites (fresh sites) where
  covers := fresh_covers
  nodup := fun b _ => by rw [fresh_record]; simp [Definitions.identities]
  made := fun b _ r hr => by rw [fresh_record] at hr; cases hr

theorem Sound.bounded {s : Session} (hs : s.Sound sites) : s.Bounded sites where
  covers := hs.covers
  nodup := hs.nodup
  made := fun b hb r hr => (hs.arrives b hb r hr).mem_identitiesMade

theorem Bounded.nodup_result {s : Session} (hs : s.Bounded sites) {b : Site} (hb : b ∈ sites) :
    (s.result b).identities.Nodup :=
  nodup_identities_outgoing (nodup_identities_merged (hs.nodup b hb))

theorem Bounded.made_result (hres : Resolved sites) {s : Session} (hs : s.Bounded sites) {b : Site}
    (hb : b ∈ sites) {r : Reference} (hr : r ∈ (s.result b).identities) :
    r ∈ identitiesMade sites := by
  rcases mem_identities_outgoing.1 hr with hgen | ⟨hstart, -⟩
  · obtain ⟨d, hd, rfl⟩ := List.mem_map.1 hgen
    rcases mem_of_mem_outgoing hd with hd | ⟨e, he, hd⟩
    · cases hd
    · exact List.mem_flatMap.2 ⟨b, hb, List.mem_flatMap.2 ⟨e, he, List.mem_map_of_mem hd⟩⟩
  · rcases mem_identities_merged.1 hstart with hown | ⟨i, hi, hpred⟩
    · exact hs.made b hb r hown
    · obtain ⟨a, ha, rfl⟩ := hres b hb i (.inl hi)
      exact hs.made a ha r hpred

/-- **A visit keeps the records bounded.** -/
theorem Bounded.visited (hres : Resolved sites) {s : Session} (hs : s.Bounded sites) {b : Site}
    (hb : b ∈ sites) : (s.visited b).Bounded sites := by
  refine ⟨hs.covers.visited b, fun a ha => ?_, fun a ha r hr => ?_⟩
  · by_cases hid : a.id = b.id
    · rw [hid]
      rcases record_visited_self hs.covers hb with ⟨-, hrec⟩ | ⟨-, hrec⟩ <;> rw [hrec]
      · exact hs.nodup b hb
      · exact hs.nodup_result hb
    · rw [record_visited_of_ne hid]
      exact hs.nodup a ha
  · by_cases hid : a.id = b.id
    · rw [hid, mem_identities_visited_self hs.covers hb] at hr
      exact hs.made_result hres hb hr
    · rw [record_visited_of_ne hid] at hr
      exact hs.made a ha r hr

end Session

/-! ## Numbers that blocks share -/

/-- The block that a number means. -/
def meant? (sites : List Site) (id : BlockId) : Option Site :=
  (position? sites id).bind fun p => sites[p]?

theorem meant?_eq {b : Site} {p : Nat} (hp : sites[p]? = some b)
    (hpos : position? sites b.id = some p) : meant? sites b.id = some b := by
  simp [meant?, hpos, hp]

theorem id_of_meant? {a : Site} {i : BlockId} (h : meant? sites i = some a) : a.id = i := by
  obtain ⟨p, hpos, hp⟩ := Option.bind_eq_some_iff.1 h
  obtain ⟨b, hb, hid⟩ := position?_eq_some hpos
  obtain rfl : b = a := Option.some.inj (hb.symm.trans hp)
  exact hid

/-- Whether the number of the block at a place means another block. -/
def isShadowed (sites : List Site) (p : Nat) : Bool :=
  sites[p]?.any fun b => position? sites b.id != some p

/-- The blocks that links mean are not shadowed. -/
theorem not_isShadowed_of_position? {i : BlockId} {p : Nat} (h : position? sites i = some p) :
    isShadowed sites p = false := by
  obtain ⟨b, hb, rfl⟩ := position?_eq_some h
  simp [isShadowed, hb, h]

theorem isShadowed_eq_false_iff {b : Site} {p : Nat} (hp : sites[p]? = some b) :
    isShadowed sites p = false ↔ position? sites b.id = some p := by
  simp [isShadowed, hp]

/-- How many blocks wait whose numbers mean others. -/
def shadowed (sites : List Site) (waiting : List Nat) : Nat := waiting.countP (isShadowed sites)

/-- Blocks that come to wait are those that links mean. -/
theorem shadowed_eq_of_joined {ids : List BlockId} {waiting waiting' : List Nat}
    (hnodup : waiting.Nodup) (hnodup' : waiting'.Nodup)
    (hmem : ∀ p, p ∈ waiting' ↔ p ∈ waiting ∨ ∃ i ∈ ids, position? sites i = some p) :
    shadowed sites waiting' = shadowed sites waiting := by
  have hperm : (waiting'.filter (isShadowed sites)).Perm (waiting.filter (isShadowed sites)) := by
    refine (List.perm_ext_iff_of_nodup (hnodup'.filter _) (hnodup.filter _)).2 fun p => ?_
    rw [List.mem_filter, List.mem_filter, hmem]
    constructor
    · rintro ⟨hp | ⟨i, -, hpos⟩, hshadow⟩
      · exact ⟨hp, hshadow⟩
      · rw [not_isShadowed_of_position? hpos] at hshadow
        cases hshadow
    · rintro ⟨hp, hshadow⟩
      exact ⟨.inl hp, hshadow⟩
  rw [shadowed, shadowed, List.countP_eq_length_filter, List.countP_eq_length_filter, hperm.length_eq]

theorem shadowed_eq_zero (hdistinct : (sites.map (·.id)).Nodup) (waiting : List Nat) :
    shadowed sites waiting = 0 := by
  refine List.countP_eq_zero.2 fun p _ => ?_
  cases hp : sites[p]? with
  | none => simp [isShadowed, hp]
  | some b => simp [(isShadowed_eq_false_iff hp).2 (position?_eq hdistinct hp)]

/-! ## Changes that may still come -/

namespace Session

/-- How much the record of a number can still grow; all of it, and once more, if
it does not fit the block that the number means. -/
def slack (sites : List Site) (s : Session) (i : BlockId) : Nat :=
  if ∀ b ∈ meant? sites i, s.Fits b then distinctMade sites - (s.record i).length
  else distinctMade sites + 1

theorem slack_le (sites : List Site) (s : Session) (i : BlockId) : s.slack sites i ≤ distinctMade sites + 1 := by
  unfold slack
  split <;> omega

theorem slack_le_of_fits {s : Session} {i : BlockId} (hs : ∀ b ∈ meant? sites i, s.Fits b) :
    s.slack sites i ≤ distinctMade sites := by
  rw [slack, if_pos hs]
  exact Nat.sub_le ..

theorem slack_congr {s t : Session} {i : BlockId} (hrec : t.record i = s.record i) :
    t.slack sites i = s.slack sites i := by
  have hfits : (∀ b ∈ meant? sites i, t.Fits b) ↔ ∀ b ∈ meant? sites i, s.Fits b := by
    refine forall₂_congr fun b hb => ?_
    rw [Fits, Fits, id_of_meant? hb, hrec]
  simp only [slack, hfits, hrec]

/-- A block that its number means uses up slack when its record changes. -/
theorem slack_visited_lt (hres : Resolved sites) {s : Session} (hs : s.Bounded sites) {b : Site}
    {p : Nat} (hp : sites[p]? = some b) (hpos : position? sites b.id = some p)
    (hdiff : (s.result b).sameAs (s.record b.id) = false) :
    (s.visited b).slack sites b.id < s.slack sites b.id := by
  have hb := List.mem_of_getElem? hp
  have hmeant := meant?_eq hp hpos
  have hgrown := record_visited_of_not_same hs.covers hb hdiff
  have hle := length_le_distinctMade (hs.nodup_result hb) fun r => hs.made_result hres hb
  have hafter : (s.visited b).slack sites b.id = distinctMade sites - (s.result b).length := by
    rw [slack, if_pos, hgrown]
    rintro a ha
    obtain rfl : b = a := Option.some.inj (hmeant.symm.trans ha)
    exact fits_visited hs.covers hb
  rw [hafter]
  by_cases hfits : s.Fits b
  · have hlt := length_lt_of_not_sameAs (hs.nodup_result hb) (hs.nodup b hb)
      (fun r => hfits.mem_result) hdiff
    rw [slack, if_pos]
    · omega
    · rintro a ha
      obtain rfl : b = a := Option.some.inj (hmeant.symm.trans ha)
      exact hfits
  · rw [slack, if_neg]
    · omega
    · exact fun hall => hfits (hall b hmeant)

/-- How often the record of a number can still change, while some blocks wait:
each block that is shadowed may change it once and make it unfit. -/
def changesLeft (sites : List Site) (s : Session) (waiting : List Nat) (i : BlockId) : Nat :=
  shadowed sites waiting * (distinctMade sites + 2) + s.slack sites i

theorem changesLeft_congr {s t : Session} {waiting waiting' : List Nat} {i : BlockId}
    (hrec : t.record i = s.record i) (hle : shadowed sites waiting' ≤ shadowed sites waiting) :
    t.changesLeft sites waiting' i ≤ s.changesLeft sites waiting i := by
  rw [changesLeft, changesLeft, slack_congr hrec]
  have := Nat.mul_le_mul_right (distinctMade sites + 2) hle
  omega

/-- **A change of a record is one of those that were left**, and gives no other
record more of them. -/
theorem changesLeft_visited (hres : Resolved sites) {s : Session} (hs : s.Bounded sites) {b : Site}
    {p : Nat} (hp : sites[p]? = some b) {waiting waiting' : List Nat}
    (hw : shadowed sites waiting' = shadowed sites waiting)
    (hdiff : (s.result b).sameAs (s.record b.id) = false) (i : BlockId) :
    (s.visited b).changesLeft sites waiting' i ≤ s.changesLeft sites (p :: waiting) i ∧
      (i = b.id → (s.visited b).changesLeft sites waiting' i < s.changesLeft sites (p :: waiting) i) := by
  by_cases hshadow : isShadowed sites p = true
  · -- one block fewer is shadowed, which makes up for any slack
    have hcount : shadowed sites (p :: waiting) = shadowed sites waiting' + 1 := by
      rw [hw, shadowed, shadowed, List.countP_cons_of_pos hshadow]
    have hslack := (s.visited b).slack_le sites i
    have hlt : (s.visited b).changesLeft sites waiting' i < s.changesLeft sites (p :: waiting) i := by
      rw [changesLeft, changesLeft, hcount, Nat.succ_mul]
      omega
    exact ⟨Nat.le_of_lt hlt, fun _ => hlt⟩
  · have hcount : shadowed sites (p :: waiting) = shadowed sites waiting' := by
      rw [hw, shadowed, shadowed, List.countP_cons_of_neg hshadow]
    by_cases hi : i = b.id
    · subst hi
      have hpos := (isShadowed_eq_false_iff hp).1 (by simpa using hshadow)
      have hlt := slack_visited_lt hres hs hp hpos hdiff
      have hless : (s.visited b).changesLeft sites waiting' b.id <
          s.changesLeft sites (p :: waiting) b.id := by
        rw [changesLeft, changesLeft, hcount]
        omega
      exact ⟨Nat.le_of_lt hless, fun _ => hless⟩
    · exact ⟨changesLeft_congr (record_visited_of_ne hi) (Nat.le_of_eq hcount.symm), fun h => absurd h hi⟩

/-- How many blocks can still come to wait: those behind a block come whenever
its record changes. -/
def room (sites : List Site) (s : Session) (waiting : List Nat) : Nat :=
  total (fun b => b.succs.length * s.changesLeft sites waiting b.id) sites

/-- A bound on the visits that are still to come. -/
def potential (sites : List Site) (s : Session) (waiting : List Nat) : Nat :=
  waiting.length + s.room sites waiting

/-- **A visit uses up potential.** -/
theorem potential_visited (hres : Resolved sites) {s s' : Session} (hs : s.Bounded sites) {p : Nat}
    {b : Site} {waiting waiting' : List Nat} (hw : Places sites (p :: waiting))
    (hp : sites[p]? = some b) (hv : visit sites b s waiting = .ok (s', waiting')) :
    s'.potential sites waiting' < s.potential sites (p :: waiting) := by
  have hb := List.mem_of_getElem? hp
  obtain ⟨rfl, ⟨hsame, rfl⟩ | ⟨hdiff, hmem, hkeep, hlen⟩⟩ := visit_inversion hres hs.covers hb hv
  · have hrec := record_congr (records_visited_of_same hsame)
    have hcount : shadowed sites waiting' ≤ shadowed sites (p :: waiting') := by
      rw [shadowed, shadowed, List.countP_cons]
      omega
    have hroom : (s.visited b).room sites waiting' ≤ s.room sites (p :: waiting') :=
      total_le_total fun a _ => Nat.mul_le_mul_left _ (changesLeft_congr (hrec a.id) hcount)
    simp only [potential, List.length_cons]
    omega
  · have hnodup := (List.nodup_cons.1 hw.nodup).2
    have hchanges := changesLeft_visited hres hs hp
      (shadowed_eq_of_joined hnodup (hkeep hnodup) hmem) hdiff
    have hroom : (s.visited b).room sites waiting' + b.succs.length ≤ s.room sites (p :: waiting) := by
      refine total_add_le_total (fun a _ => Nat.mul_le_mul_left _ (hchanges a.id).1) hb ?_
      rw [← Nat.mul_succ]
      exact Nat.mul_le_mul_left _ ((hchanges b.id).2 rfl)
    simp only [potential, List.length_cons]
    omega

theorem potential_le {s : Session} {waiting : List Nat} {k : Nat}
    (h : ∀ i, s.changesLeft sites waiting i ≤ k) :
    s.potential sites waiting ≤ waiting.length + k * total (fun b => b.succs.length) sites := by
  rw [potential, room, Nat.mul_comm, ← total_mul_right]
  exact Nat.add_le_add_left (total_le_total fun b _ => Nat.mul_le_mul_left _ (h b.id)) _

end Session

/-! ## Runs to the end -/

/-- From every bounded state there is a run to the end within its potential. -/
theorem exists_run_of_potential_le (hres : Resolved sites) :
    ∀ {n : Nat} {s : Session} {waiting : List Nat}, s.Bounded sites →
      Places sites waiting → s.potential sites waiting ≤ n →
      ∃ places s', Run sites s waiting places s' [] ∧ places.length ≤ n := by
  intro n
  induction n with
  | zero =>
    intro s waiting _ _ hn
    obtain rfl : waiting = [] := by
      rw [← List.length_eq_zero_iff]
      simp only [Session.potential] at hn
      omega
    exact ⟨[], s, .stop, Nat.le_refl _⟩
  | succ n ih =>
    intro s waiting hs hw hn
    cases waiting with
    | nil => exact ⟨[], s, .stop, Nat.zero_le _⟩
    | cons p waiting =>
      obtain ⟨b, hp⟩ : ∃ b, sites[p]? = some b :=
        ⟨_, List.getElem?_eq_getElem (hw.lt p (List.mem_cons_self ..))⟩
      have hb := List.mem_of_getElem? hp
      obtain ⟨waiting', hok, -⟩ := visit_ok hres hs.covers hb waiting
      have hless := Session.potential_visited hres hs hw hp hok
      obtain ⟨places, s', hrun, hlen⟩ := ih (hs.visited hres hb)
        (hw.visited hres hs.covers hp hok) (by omega)
      exact ⟨p :: places, s', .visit hp hok hrun, by simpa using hlen⟩

theorem distinctMade_le (sites : List Site) :
    distinctMade sites ≤
      total (fun b => total (fun e => e.definitions.length) b.effects) sites := by
  refine (List.toFinset_card_le _).trans (Nat.le_of_eq ?_)
  rw [identitiesMade, length_flatMap_eq_total]
  simp only [length_flatMap_eq_total, Definitions.identities, List.length_map]

/-- A bound on the potential by the number of blocks that wait and of what statements make. -/
theorem Session.potential_le_of_le (s : Session) {waiting : List Nat} {n made : Nat}
    (hn : waiting.length ≤ n) (hmade : distinctMade sites ≤ made) :
    s.potential sites waiting ≤
      n + total (fun b => b.succs.length) sites * (2 * n + 2) * (made + 1) := by
  have hcount : shadowed sites waiting ≤ n := List.countP_le_length.trans hn
  have hchanges : ∀ i, s.changesLeft sites waiting i ≤ (2 * n + 2) * (made + 1) := by
    intro i
    have hslack := s.slack_le sites i
    calc s.changesLeft sites waiting i
        ≤ n * (2 * (made + 1)) + 2 * (made + 1) :=
          Nat.add_le_add (Nat.mul_le_mul hcount (by omega)) (by omega)
      _ = (2 * n + 2) * (made + 1) := by
          rw [Nat.add_mul, Nat.mul_left_comm, Nat.mul_assoc]
  refine (potential_le hchanges).trans (Nat.add_le_add hn (Nat.le_of_eq ?_))
  rw [Nat.mul_comm, Nat.mul_assoc]

/-- The bound on visits is at least the potential at the start of a call. -/
theorem potential_le_visitBound (s : Session) :
    s.potential sites (List.range sites.length) ≤ visitBound sites s :=
  s.potential_le_of_le (Nat.le_of_eq List.length_range)
    ((distinctMade_le sites).trans (Nat.le_add_right ..))

/-- **A call of the analysis without a budget comes to an end.** It makes a run
after which no block waits. -/
theorem exists_run (hres : Resolved sites) {s : Session} (hs : s.Bounded sites) :
    ∃ places s', Run sites s (List.range sites.length) places s' [] ∧
      places.length ≤ s.potential sites (List.range sites.length) ∧
      analyze sites none s = .ok (s', ⟨places.length, false⟩) := by
  obtain ⟨places, s', hrun, hlen⟩ := exists_run_of_potential_le hres hs places_range (Nat.le_refl _)
  exact ⟨places, s', hrun, hlen,
    hrun.analyze_eq hres hs.covers (hlen.trans (potential_le_visitBound s))⟩

end Reaching
