/-
What one visit of a block does.

A block's links lead to blocks and every block has a record, so a visit never
fails. It replays the block over what was found so far (`Session.visited`) and,
if the result differs from the record, lets the blocks behind it wait
(`visit_cases`). Everything later is proved from the lemmas about
`Session.visited` and the lemma about the blocks that wait.
-/
import Reaching.Proofs.Arrival

namespace Reaching

variable {sites : List Site}

/-! ## Records -/

namespace Session

/-- Every block has a record. -/
def Covers (sites : List Site) (s : Session) : Prop := ∀ b ∈ sites, (s.record? b.id).isSome

theorem record?_setRecord (s : Session) (i j : BlockId) (ds : Definitions) :
    (s.setRecord i ds).record? j = if j = i then (s.record? j).map fun _ => ds else s.record? j := by
  simp only [record?, setRecord]
  induction s.records with
  | nil => simp
  | cons r rest ih =>
    rw [List.map_cons, List.find?_cons, List.find?_cons]
    by_cases hj : r.1 = j
    · by_cases hi : j = i
      · have hri : r.1 = i := hj.trans hi
        simp [hri, hi]
      · simp [hi, hj]
    · have hne : ¬ (if r.1 = i then (i, ds) else r).1 = j := by
        split
        · rename_i hri; exact fun h => hj (hri.trans h)
        · exact hj
      simp only [hne, hj, decide_false, ih]

theorem record_setRecord_self {s : Session} {i : BlockId} {ds : Definitions}
    (h : (s.record? i).isSome) : (s.setRecord i ds).record i = ds := by
  obtain ⟨es, hes⟩ := Option.isSome_iff_exists.1 h
  simp [record, record?_setRecord, hes]

theorem record_setRecord_of_ne {s : Session} {i j : BlockId} {ds : Definitions} (h : j ≠ i) :
    (s.setRecord i ds).record j = s.record j := by
  simp [record, record?_setRecord, h]

theorem Covers.setRecord {s : Session} (h : Covers sites s) (i : BlockId) (ds : Definitions) :
    Covers sites (s.setRecord i ds) := by
  intro b hb
  rw [record?_setRecord]
  split
  · simpa using h b hb
  · exact h b hb

/-- An analysis that has not begun has an empty record for every block. -/
theorem fresh_record? {b : Site} (hb : b ∈ sites) :
    (fresh sites).record? b.id = some [] := by
  have hmem : (b.id, ([] : Definitions)) ∈ (fresh sites).records := by
    simp only [fresh, List.mem_map, List.mem_eraseDups]
    exact ⟨b.id, ⟨b, hb, rfl⟩, rfl⟩
  cases hfind : (fresh sites).records.find? fun r => r.1 = b.id with
  | none =>
    have := List.find?_eq_none.1 hfind _ hmem
    simp at this
  | some r =>
    have hr := List.mem_of_find?_eq_some hfind
    simp only [fresh, List.mem_map] at hr
    obtain ⟨i, -, rfl⟩ := hr
    simp [record?, hfind]

theorem fresh_covers : Covers sites (fresh sites) := fun b hb => by
  rw [fresh_record? hb]; rfl

theorem fresh_record (i : BlockId) : (fresh sites).record i = [] := by
  simp only [record, record?]
  cases hfind : (fresh sites).records.find? fun r => r.1 = i with
  | none => rfl
  | some r =>
    have hr := List.mem_of_find?_eq_some hfind
    simp only [fresh, List.mem_map] at hr
    obtain ⟨j, -, rfl⟩ := hr
    rfl

/-! ## Definitions at the top of a block -/

/-- Definitions with the records of some blocks. -/
def merged (s : Session) (ids : List BlockId) (ds : Definitions) : Definitions :=
  ids.foldl (fun ds i => ds.union (s.record i)) ds

theorem mem_identities_merged {s : Session} {ids : List BlockId} {ds : Definitions} {r : Reference} :
    r ∈ (s.merged ids ds).identities ↔
      r ∈ ds.identities ∨ ∃ i ∈ ids, r ∈ (s.record i).identities := by
  unfold merged
  induction ids generalizing ds with
  | nil => simp
  | cons i ids ih =>
    rw [List.foldl_cons, ih, Definitions.mem_identities_union]
    simp [or_assoc]

theorem mem_of_mem_merged {s : Session} {ids : List BlockId} {ds : Definitions} {d : Definition}
    (h : d ∈ s.merged ids ds) : d ∈ ds ∨ ∃ i ∈ ids, d ∈ s.record i := by
  unfold merged at h
  induction ids generalizing ds with
  | nil => exact .inl h
  | cons i ids ih =>
    rcases ih h with h | ⟨j, hj, h⟩
    · rcases Definitions.mem_of_mem_union h with h | h
      · exact .inl h
      · exact .inr ⟨i, List.mem_cons_self .., h⟩
    · exact .inr ⟨j, List.mem_cons_of_mem _ hj, h⟩

theorem nodup_identities_merged {s : Session} {ids : List BlockId} {ds : Definitions}
    (h : ds.identities.Nodup) : (s.merged ids ds).identities.Nodup := by
  unfold merged
  induction ids generalizing ds with
  | nil => exact h
  | cons i ids ih => exact ih (Definitions.nodup_identities_union h)

/-- What a visit of a block starts from: its own record and those of the blocks
before it. -/
def start (s : Session) (b : Site) : Definitions := s.merged b.preds (s.record b.id)

/-- What a visit finds at the end of a block. -/
def result (s : Session) (b : Site) : Definitions := outgoing b.effects (s.start b)

theorem incoming_eq {s : Session} {b : Site} (h : ∀ i ∈ b.preds, (s.record? i).isSome) :
    s.incoming b = .ok (s.start b) := by
  unfold incoming start merged
  generalize s.record b.id = ds
  generalize b.preds = ids at h
  induction ids generalizing ds with
  | nil => rfl
  | cons i ids ih =>
    obtain ⟨es, hes⟩ := Option.isSome_iff_exists.1 (h i (List.mem_cons_self ..))
    rw [List.foldlM_cons, List.foldl_cons, record, hes]
    exact ih _ (fun j hj => h j (List.mem_cons_of_mem _ hj))

/-! ## The state after a visit -/

/-- The state after a visit of a block. -/
def visited (s : Session) (b : Site) : Session :=
  if (s.result b).sameAs (s.record b.id) then s.note b.effects (s.start b)
  else (s.note b.effects (s.start b)).setRecord b.id (s.result b)

theorem note_record? (s : Session) (es : List Effect) (ds : Definitions) (i : BlockId) :
    (s.note es ds).record? i = s.record? i := rfl

theorem note_record (s : Session) (es : List Effect) (ds : Definitions) (i : BlockId) :
    (s.note es ds).record i = s.record i := rfl

theorem Covers.visited {s : Session} (h : Covers sites s) (b : Site) :
    Covers sites (s.visited b) := by
  unfold Session.visited
  split
  · exact h
  · exact Covers.setRecord (s := s.note b.effects (s.start b)) h b.id _

theorem record_visited_of_ne {s : Session} {b : Site} {i : BlockId} (h : i ≠ b.id) :
    (s.visited b).record i = s.record i := by
  unfold visited
  split
  · rfl
  · rw [record_setRecord_of_ne h, note_record]

/-- A visit leaves the record as it was, or puts its result there. -/
theorem record_visited_self {s : Session} (h : Covers sites s) {b : Site} (hb : b ∈ sites) :
    ((s.result b).sameAs (s.record b.id) = true ∧ (s.visited b).record b.id = s.record b.id) ∨
      ((s.result b).sameAs (s.record b.id) = false ∧ (s.visited b).record b.id = s.result b) := by
  unfold visited
  split
  · rename_i hsame
    exact .inl ⟨hsame, rfl⟩
  · rename_i hsame
    refine .inr ⟨by simpa using hsame, record_setRecord_self ?_⟩
    rw [note_record?]
    exact h b hb

/-- A visit that finds what is on record leaves every record as it was. -/
theorem records_visited_of_same {s : Session} {b : Site}
    (hsame : (s.result b).sameAs (s.record b.id) = true) : (s.visited b).records = s.records := by
  rw [visited, if_pos hsame]
  rfl

theorem record_congr {s t : Session} (h : t.records = s.records) (i : BlockId) :
    t.record i = s.record i := by
  rw [record, record?, record, record?, h]

/-- A visit that finds something else puts it on record. -/
theorem record_visited_of_not_same {s : Session} (h : Covers sites s) {b : Site} (hb : b ∈ sites)
    (hdiff : (s.result b).sameAs (s.record b.id) = false) :
    (s.visited b).record b.id = s.result b := by
  rcases record_visited_self h hb with ⟨hsame, -⟩ | ⟨-, hrec⟩
  · simp [hdiff] at hsame
  · exact hrec

/-- After a visit a block's record holds what the visit found, as identities. -/
theorem mem_identities_visited_self {s : Session} (h : Covers sites s) {b : Site} (hb : b ∈ sites)
    {r : Reference} :
    r ∈ ((s.visited b).record b.id).identities ↔ r ∈ (s.result b).identities := by
  rcases record_visited_self h hb with ⟨hsame, hrec⟩ | ⟨-, hrec⟩
  · rw [hrec]
    exact (Definitions.sameAs_iff.1 hsame r).symm
  · rw [hrec]

/-- What is in a list to which items were added, each unless it was there. -/
theorem mem_foldl_insert {α : Type} [BEq α] [LawfulBEq α] {insert : List α → α → List α}
    (hinsert : ∀ l a, insert l a = if l.contains a then l else l ++ [a]) {found l : List α} {x : α} :
    x ∈ found.foldl insert l ↔ x ∈ l ∨ x ∈ found := by
  induction found generalizing l with
  | nil => simp
  | cons y found ih =>
    have hins : x ∈ insert l y ↔ x ∈ l ∨ x = y := by
      rw [hinsert]
      split
      · rename_i hy
        have hy : y ∈ l := by simpa using hy
        exact ⟨.inl, fun h => h.elim id fun h => h ▸ hy⟩
      · simp
    rw [List.foldl_cons, ih, hins, List.mem_cons, or_assoc]

/-- A visit adds the edges of its replay. -/
theorem mem_edges_visited {s : Session} {b : Site} {x : Edge} :
    x ∈ (s.visited b).edges ↔ x ∈ s.edges ∨ x ∈ edgesAlong b.effects (s.start b) := by
  have hnote : (s.visited b).edges = (s.note b.effects (s.start b)).edges := by
    unfold visited
    split <;> rfl
  rw [hnote]
  exact mem_foldl_insert fun _ _ => rfl

/-- A visit adds the names that the block imports. -/
theorem mem_modules_visited {s : Session} {b : Site} {name : String} :
    name ∈ (s.visited b).modules ↔ name ∈ s.modules ∨ ∃ e ∈ b.effects, name ∈ e.imports := by
  have hnote : (s.visited b).modules = (s.note b.effects (s.start b)).modules := by
    unfold visited
    split <;> rfl
  rw [hnote, ← List.mem_flatMap]
  exact mem_foldl_insert fun _ _ => rfl

theorem visits_visited (s : Session) (b : Site) : (s.visited b).visits = s.visits + 1 := by
  unfold visited
  split <;> rfl

end Session

/-! ## Blocks that wait -/

theorem position?_eq_some {i : BlockId} {p : Nat} (h : position? sites i = some p) :
    ∃ b, sites[p]? = some b ∧ b.id = i := by
  obtain ⟨⟨b, q⟩, hlast, rfl⟩ := Option.map_eq_some_iff.1 h
  have hmem := List.mem_filter.1 (List.mem_of_getLast? hlast)
  exact ⟨b, List.mem_zipIdx_iff_getElem?.1 hmem.1, by simpa using hmem.2⟩

theorem exists_position? {b : Site} (hb : b ∈ sites) : ∃ p, position? sites b.id = some p := by
  obtain ⟨p, hp⟩ := List.mem_iff_getElem?.1 hb
  have hmem : (b, p) ∈ sites.zipIdx.filter fun x => x.1.id = b.id :=
    List.mem_filter.2 ⟨List.mem_zipIdx_iff_getElem?.2 hp, by simp⟩
  cases hlast : (sites.zipIdx.filter fun x => x.1.id = b.id).getLast? with
  | none =>
    rw [List.getLast?_eq_none_iff.1 hlast] at hmem
    cases hmem
  | some x => exact ⟨x.2, by simp [position?, hlast]⟩

/-- A number that is not shared has one place. -/
theorem place_inj (hdistinct : (sites.map (·.id)).Nodup) {a b : Site} {p q : Nat}
    (hp : sites[p]? = some a) (hq : sites[q]? = some b) (hid : a.id = b.id) : p = q := by
  have hpq : (sites.map (·.id))[p]? = (sites.map (·.id))[q]? := by simp [hp, hq, hid]
  have hlt : p < (sites.map (·.id)).length := by
    simpa using (List.getElem?_eq_some_iff.1 hp).1
  exact (List.getElem?_inj hlt hdistinct).1 hpq

theorem position?_eq (hdistinct : (sites.map (·.id)).Nodup) {b : Site} {p : Nat}
    (hp : sites[p]? = some b) : position? sites b.id = some p := by
  obtain ⟨q, hq⟩ := exists_position? (List.mem_of_getElem? hp)
  obtain ⟨a, ha, hid⟩ := position?_eq_some hq
  rw [hq, place_inj hdistinct ha hp hid]

theorem Linked.place_inj (h : Linked sites) {a b : Site} {p q : Nat} (hp : sites[p]? = some a)
    (hq : sites[q]? = some b) (hid : a.id = b.id) : p = q :=
  Reaching.place_inj h.distinct hp hq hid

/-- Which blocks wait once more have come: those that waited, and those that
the links mean. None waits twice. -/
theorem enqueue_ok {ids : List BlockId} (hres : ∀ i ∈ ids, ∃ b ∈ sites, b.id = i)
    (waiting : List Nat) : ∃ waiting', enqueue sites waiting ids = .ok waiting' ∧
      (∀ p, p ∈ waiting' ↔ p ∈ waiting ∨ ∃ i ∈ ids, position? sites i = some p) ∧
      (waiting.Nodup → waiting'.Nodup) ∧ waiting'.length ≤ waiting.length + ids.length := by
  unfold enqueue
  induction ids generalizing waiting with
  | nil => exact ⟨waiting, rfl, by simp, id, by simp⟩
  | cons i ids ih =>
    obtain ⟨b, hb, rfl⟩ := hres i (List.mem_cons_self ..)
    obtain ⟨q, hq⟩ := exists_position? hb
    obtain ⟨waiting', hok, hmem, hnodup, hlen⟩ := ih (fun j hj => hres j (List.mem_cons_of_mem _ hj))
      (if waiting.contains q then waiting else q :: waiting)
    refine ⟨waiting', ?_, ?_, ?_, ?_⟩
    · rw [List.foldlM_cons, hq]
      exact hok
    · intro p
      have hhead : p ∈ (if waiting.contains q then waiting else q :: waiting) ↔
          p ∈ waiting ∨ p = q := by
        split
        · rename_i hin
          have hin : q ∈ waiting := by simpa using hin
          exact ⟨.inl, fun h => h.elim id fun h => h ▸ hin⟩
        · simp [or_comm]
      rw [hmem, hhead]
      simp [hq, or_assoc, eq_comm]
    · intro hw
      refine hnodup ?_
      split
      · exact hw
      · rename_i hin
        exact List.nodup_cons.2 ⟨by simpa using hin, hw⟩
    · have hhead : (if waiting.contains q then waiting else q :: waiting).length ≤
          waiting.length + 1 := by
        split <;> simp
      simp only [List.length_cons]
      omega

/-- **A visit never fails** where links lead to blocks and every block has a
record. Its result is in the record already and the same blocks wait, or it
differs and the blocks behind wait too. -/
theorem visit_ok (hres : Resolved sites) {s : Session} (hs : s.Covers sites) {b : Site}
    (hb : b ∈ sites) (waiting : List Nat) :
    ∃ waiting', visit sites b s waiting = .ok (s.visited b, waiting') ∧
      (((s.result b).sameAs (s.record b.id) = true ∧ waiting' = waiting) ∨
        ((s.result b).sameAs (s.record b.id) = false ∧
          (∀ p, p ∈ waiting' ↔ p ∈ waiting ∨ ∃ i ∈ b.succs, position? sites i = some p) ∧
          (waiting.Nodup → waiting'.Nodup) ∧
          waiting'.length ≤ waiting.length + b.succs.length)) := by
  have hpreds : ∀ i ∈ b.preds, (s.record? i).isSome := by
    intro i hi
    obtain ⟨a, ha, rfl⟩ := hres b hb i (.inl hi)
    exact hs a ha
  have hsuccs : ∀ i ∈ b.succs, ∃ a ∈ sites, a.id = i := fun i hi => hres b hb i (.inr hi)
  obtain ⟨waiting', hok, hmem, hnodup, hlen⟩ := enqueue_ok hsuccs waiting
  unfold visit
  rw [Session.incoming_eq hpreds]
  by_cases hsame : (s.result b).sameAs (s.record b.id) = true
  · refine ⟨waiting, ?_, .inl ⟨hsame, rfl⟩⟩
    simp only [Session.result] at hsame
    simp [bind, Except.bind, Session.visited, Session.result, hsame]
  · have hdiff : (s.result b).sameAs (s.record b.id) = false := by simpa using hsame
    refine ⟨waiting', ?_, .inr ⟨hdiff, hmem, hnodup, hlen⟩⟩
    simp only [Session.result] at hdiff
    simp [bind, Except.bind, Session.visited, Session.result, hdiff, hok]

/-- **Everything a visit does** where links lead to blocks: none come to wait, or
those behind the block, each in the place that its number means. -/
theorem visit_inversion (hres : Resolved sites) {s s' : Session} (hs : s.Covers sites) {b : Site}
    (hb : b ∈ sites) {waiting waiting' : List Nat}
    (hv : visit sites b s waiting = .ok (s', waiting')) :
    s' = s.visited b ∧
      (((s.result b).sameAs (s.record b.id) = true ∧ waiting' = waiting) ∨
        ((s.result b).sameAs (s.record b.id) = false ∧
          (∀ p, p ∈ waiting' ↔ p ∈ waiting ∨ ∃ i ∈ b.succs, position? sites i = some p) ∧
          (waiting.Nodup → waiting'.Nodup) ∧
          waiting'.length ≤ waiting.length + b.succs.length)) := by
  obtain ⟨w, hok, hcases⟩ := visit_ok hres hs hb waiting
  obtain ⟨rfl, rfl⟩ : s.visited b = s' ∧ w = waiting' := by simpa using hok.symm.trans hv
  exact ⟨rfl, hcases⟩

/-- Everything a visit does to the blocks that wait, where numbers are not
shared: none, or those behind the block join them. -/
theorem visit_cases (h : Linked sites) {s s' : Session} (hs : s.Covers sites) {b : Site}
    (hb : b ∈ sites) {waiting waiting' : List Nat}
    (hv : visit sites b s waiting = .ok (s', waiting')) :
    s' = s.visited b ∧
      (((s.result b).sameAs (s.record b.id) = true ∧ waiting' = waiting) ∨
        ((s.result b).sameAs (s.record b.id) = false ∧
          (∀ p, p ∈ waiting' ↔ p ∈ waiting ∨ ∃ a, sites[p]? = some a ∧ a.id ∈ b.succs) ∧
          (waiting.Nodup → waiting'.Nodup) ∧
          waiting'.length ≤ waiting.length + b.succs.length)) := by
  obtain ⟨rfl, hcases⟩ := visit_inversion h.resolved hs hb hv
  refine ⟨rfl, hcases.imp_right fun ⟨hdiff, hmem, hrest⟩ => ⟨hdiff, fun p => ?_, hrest⟩⟩
  rw [hmem]
  constructor
  · rintro (hp | ⟨i, hi, hpos⟩)
    · exact .inl hp
    · obtain ⟨a, ha, rfl⟩ := position?_eq_some hpos
      exact .inr ⟨a, ha, hi⟩
  · rintro (hp | ⟨a, ha, hi⟩)
    · exact .inl hp
    · exact .inr ⟨a.id, hi, position?_eq h.distinct ha⟩

end Reaching
