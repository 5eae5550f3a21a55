/-
Where the definitions of a set come from.

Definitions are told apart by name and span, and a set keeps the first of several
that are the same. So an edge starts at the statement that owns the one that was
kept (`Definitions.origin?`), also where different statements make the same
definition. Of two sets that are joined the first one decides
(`Definitions.origin?_union`); a replay keeps where names come from that no
statement defines, and decides about the others itself (`origin?_outgoing`). The
edges of a replay follow from this (`mem_edgesAlong_iff`).
-/
import Reaching.Proofs.Revisits

namespace Reaching

/-! ## Sets -/

namespace Definitions

/-- The span of the statement that owns the definition of a set with an identity. -/
def origin? (ds : Definitions) (r : Reference) : Option Span :=
  (ds.find? fun d => d.identity = r).map (·.owner.span)

@[simp] theorem origin?_nil (r : Reference) : origin? [] r = none := rfl

theorem origin?_eq_none_iff {ds : Definitions} {r : Reference} :
    ds.origin? r = none ↔ r ∉ ds.identities := by
  simp [origin?, identities]

theorem exists_origin?_iff {ds : Definitions} {r : Reference} :
    (∃ o, ds.origin? r = some o) ↔ r ∈ ds.identities := by
  rw [← Option.ne_none_iff_exists', ne_eq, origin?_eq_none_iff, not_not]

theorem exists_of_origin? {ds : Definitions} {r : Reference} {o : Span} (h : ds.origin? r = some o) :
    ∃ d ∈ ds, d.identity = r ∧ d.owner.span = o := by
  obtain ⟨d, hfind, ho⟩ := Option.map_eq_some_iff.1 h
  exact ⟨d, List.mem_of_find?_eq_some hfind, by simpa using List.find?_some hfind, ho⟩

/-- A set has one definition of each identity. -/
theorem origin?_of_mem {ds : Definitions} (hnodup : ds.identities.Nodup) {d : Definition}
    (hd : d ∈ ds) : ds.origin? d.identity = some d.owner.span := by
  obtain ⟨o, ho⟩ := exists_origin?_iff.2 (List.mem_map_of_mem hd)
  obtain ⟨f, hf, hid, rfl⟩ := exists_of_origin? ho
  obtain rfl := List.inj_on_of_nodup_map hnodup hf hd hid
  exact ho

theorem origin?_cons (d : Definition) (ds : Definitions) (r : Reference) :
    origin? (d :: ds) r = if d.identity = r then some d.owner.span else ds.origin? r := by
  by_cases h : d.identity = r <;> simp [origin?, h]

theorem origin?_append (ds es : Definitions) (r : Reference) :
    origin? (ds ++ es) r = (ds.origin? r).or (es.origin? r) := by
  rw [origin?, List.find?_append, Option.map_or]
  rfl

theorem origin?_insert (ds : Definitions) (d : Definition) (r : Reference) :
    (ds.insert d).origin? r = (ds.origin? r).or (origin? [d] r) := by
  unfold insert
  split
  · rename_i hhas
    by_cases hr : d.identity = r
    · obtain ⟨o, ho⟩ := exists_origin?_iff.2 (hr ▸ has_iff.1 hhas)
      rw [ho, Option.some_or]
    · simp [origin?, hr]
  · exact origin?_append ds [d] r

/-- **Of two sets that are joined the first one decides.** -/
theorem origin?_union (ds es : Definitions) (r : Reference) :
    (ds.union es).origin? r = (ds.origin? r).or (es.origin? r) := by
  unfold union
  induction es generalizing ds with
  | nil => simp
  | cons e es ih =>
    rw [List.foldl_cons, ih, origin?_insert, Option.or_assoc, ← origin?_append]
    rfl

theorem origin?_filter (keep : Text → Bool) (ds : Definitions) (r : Reference) :
    origin? (ds.filter fun d => keep d.name) r = if keep r.name then ds.origin? r else none := by
  induction ds with
  | nil => simp
  | cons d ds ih =>
    rw [List.filter_cons, origin?_cons]
    by_cases hd : d.identity = r
    · have hname : r.name = d.name := hd ▸ rfl
      rw [if_pos hd, hname]
      by_cases hkeep : keep d.name = true
      · rw [if_pos hkeep, if_pos hkeep, origin?_cons, if_pos hd]
      · rw [if_neg hkeep, if_neg hkeep, ih, hname, if_neg hkeep]
    · rw [if_neg hd, ← ih]
      split
      · rw [origin?_cons, if_neg hd]
      · rfl

end Definitions

/-! ## Replays -/

namespace Effect

theorem Makes.defines {e : Effect} {r : Reference} (h : e.Makes r) : e.Defines r.name := by
  obtain ⟨d, hd, rfl⟩ := List.mem_map.1 h
  exact ⟨d, hd, rfl⟩

/-- An effect decides where the names come from that it defines. -/
theorem origin?_apply (e : Effect) (ds : Definitions) (r : Reference) :
    (e.apply ds).origin? r =
      if e.Defines r.name then Definitions.origin? e.definitions r else ds.origin? r := by
  have hkeep : (!e.definitions.any fun f => f.name = r.name) = true ↔ ¬ e.Defines r.name := by
    simp [Defines]
  rw [apply, Definitions.origin?_union,
    Definitions.origin?_filter fun name => !e.definitions.any fun f => f.name = name]
  by_cases hdef : e.Defines r.name
  · rw [if_pos hdef, if_neg fun h => hkeep.1 h hdef, Option.none_or]
  · have hnone : Definitions.origin? e.definitions r = Option.none :=
      Definitions.origin?_eq_none_iff.2 fun h => hdef (Makes.defines h)
    rw [if_neg hdef, if_pos (hkeep.2 hdef), hnone, Option.or_none]

theorem mem_edges_iff_origin? {e : Effect} {ds : Definitions} (hnodup : ds.identities.Nodup)
    {x : Edge} :
    x ∈ e.edges ds ↔ ∃ r, ds.origin? r = some x.source ∧ r.name ∈ e.uses ∧ e.span = x.target := by
  rw [mem_edges]
  constructor
  · rintro ⟨d, hd, huse, rfl⟩
    exact ⟨d.identity, Definitions.origin?_of_mem hnodup hd, huse, rfl⟩
  · rintro ⟨r, hr, huse, ht⟩
    obtain ⟨d, hd, rfl, hs⟩ := Definitions.exists_of_origin? hr
    exact ⟨d, hd, huse, by rw [hs, ht]⟩

end Effect

/-- **A replay keeps where names come from that it does not define**, and decides
about the others whatever it starts from. -/
theorem origin?_outgoing (effects : List Effect) (ds : Definitions) (r : Reference) :
    (outgoing effects ds).origin? r =
      if Clear effects r.name then ds.origin? r else (outgoing effects []).origin? r := by
  induction effects generalizing ds with
  | nil => simp [outgoing]
  | cons e rest ih =>
    rw [outgoing_cons, outgoing_cons, ih, ih (e.apply []), Effect.origin?_apply, Effect.origin?_apply]
    by_cases hrest : Clear rest r.name <;> by_cases hdef : e.Defines r.name <;> simp [hrest, hdef]

/-- What some effects leave by themselves comes from the one that makes it and
behind which no other defines its name. -/
theorem origin?_outgoing_nil {effects : List Effect}
    (ho : ∀ e ∈ effects, ∀ d ∈ e.definitions, d.owner.span = e.span) {r : Reference} {o : Span} :
    (outgoing effects []).origin? r = some o ↔ ∃ (k : Nat) (f : Effect), effects[k]? = some f ∧
      f.span = o ∧ f.Makes r ∧ Clear (effects.drop (k + 1)) r.name := by
  induction effects with
  | nil => simp [outgoing]
  | cons e rest ih =>
    have hrest := ih fun f hf => ho f (List.mem_cons_of_mem _ hf)
    rw [outgoing_cons, origin?_outgoing, Effect.origin?_apply]
    constructor
    · intro h
      split at h
      · rename_i hclear
        split at h
        · obtain ⟨d, hd, rfl, hs⟩ := Definitions.exists_of_origin? h
          exact ⟨0, e, rfl, (ho e (List.mem_cons_self ..) d hd).symm.trans hs,
            List.mem_map_of_mem hd, hclear⟩
        · cases h
      · obtain ⟨k, f, hf, hs, hmakes, hclear⟩ := hrest.1 h
        exact ⟨k + 1, f, hf, hs, hmakes, hclear⟩
    · rintro ⟨k, f, hf, hs, hmakes, hclear⟩
      cases k with
      | zero =>
        obtain rfl : e = f := by simpa using hf
        obtain ⟨o', ho'⟩ := Definitions.exists_origin?_iff.2 hmakes
        obtain ⟨d, hd, -, hs'⟩ := Definitions.exists_of_origin? ho'
        have hclear : Clear rest r.name := hclear
        rw [if_pos hclear, if_pos hmakes.defines, ho', ← hs', ho e (List.mem_cons_self ..) d hd, hs]
      | succ k =>
        have hnot : ¬ Clear rest r.name := fun hc => hc f (List.mem_of_getElem? hf) hmakes.defines
        rw [if_neg hnot]
        exact hrest.2 ⟨k, f, hf, hs, hmakes, hclear⟩

/-- Some statement with a span reads a name in front of which nothing defines it. -/
def Exposes (effects : List Effect) (name : Text) (target : Span) : Prop :=
  ∃ (i : Nat) (e : Effect), effects[i]? = some e ∧ e.span = target ∧ name ∈ e.uses ∧
    Clear (effects.take i) name

/-- **The edges of a replay** are those it finds over nothing, and for what it
starts from those to the statements that read its name. -/
theorem mem_edgesAlong_iff {effects : List Effect} {ds : Definitions} (hnodup : ds.identities.Nodup)
    {x : Edge} :
    x ∈ edgesAlong effects ds ↔ x ∈ edgesAlong effects [] ∨
      ∃ r, ds.origin? r = some x.source ∧ Exposes effects r.name x.target := by
  have hnil : (Definitions.identities []).Nodup := by simp [Definitions.identities]
  rw [mem_edgesAlong, mem_edgesAlong]
  constructor
  · rintro ⟨i, e, he, hx⟩
    obtain ⟨r, hr, huse, ht⟩ := (Effect.mem_edges_iff_origin? (nodup_identities_outgoing hnodup)).1 hx
    rw [origin?_outgoing] at hr
    split at hr
    · rename_i hclear
      exact .inr ⟨r, hr, i, e, he, ht, huse, hclear⟩
    · exact .inl ⟨i, e, he,
        (Effect.mem_edges_iff_origin? (nodup_identities_outgoing hnil)).2 ⟨r, hr, huse, ht⟩⟩
  · rintro (⟨i, e, he, hx⟩ | ⟨r, hr, i, e, he, ht, huse, hclear⟩)
    · obtain ⟨r, hr, huse, ht⟩ := (Effect.mem_edges_iff_origin? (nodup_identities_outgoing hnil)).1 hx
      refine ⟨i, e, he, (Effect.mem_edges_iff_origin? (nodup_identities_outgoing hnodup)).2
        ⟨r, ?_, huse, ht⟩⟩
      rw [origin?_outgoing, if_neg]
      · exact hr
      · intro hclear
        rw [origin?_outgoing, if_pos hclear, Definitions.origin?_nil] at hr
        cases hr
    · refine ⟨i, e, he, (Effect.mem_edges_iff_origin? (nodup_identities_outgoing hnodup)).2
        ⟨r, ?_, huse, ht⟩⟩
      rw [origin?_outgoing, if_pos hclear]
      exact hr

/-! ## Blocks -/

variable {sites : List Site}

theorem Site.feeds_iff_origin? (ho : Owned sites) {b : Site} (hb : b ∈ sites) {x : Edge} :
    b.Feeds x ↔ ∃ r, (outgoing b.effects []).origin? r = some x.source ∧
      Exposes b.effects r.name x.target :=
  exists_congr fun _ => and_congr_left fun _ => (origin?_outgoing_nil (ho b hb)).symm

namespace Session

theorem origin?_merged (s : Session) (ids : List BlockId) (ds : Definitions) (r : Reference) :
    (s.merged ids ds).origin? r = (ds.origin? r).or ((s.merged ids []).origin? r) := by
  unfold merged
  induction ids generalizing ds with
  | nil => simp
  | cons i ids ih =>
    rw [List.foldl_cons, List.foldl_cons, ih, ih (Definitions.union [] _), Definitions.origin?_union,
      Definitions.origin?_union, Definitions.origin?_nil, Option.none_or, Option.or_assoc]

/-- At the top of a block its own record decides before those in front of it. -/
theorem origin?_start (s : Session) (b : Site) (r : Reference) :
    (s.start b).origin? r = ((s.record b.id).origin? r).or ((s.merged b.preds []).origin? r) :=
  s.origin?_merged b.preds (s.record b.id) r

/-- What a record holds of names that its block defines comes from the block. -/
def Rooted (s : Session) (b : Site) : Prop :=
  ∀ r o, (s.record b.id).origin? r = some o → ¬ Clear b.effects r.name →
    (outgoing b.effects []).origin? r = some o

theorem fresh_rooted (b : Site) : (fresh sites).Rooted b := fun r o hr => by
  rw [fresh_record] at hr; cases hr

/-- **A visit keeps a record rooted.** -/
theorem Rooted.visited {s : Session} (hcov : s.Covers sites) {b : Site} (hb : b ∈ sites)
    (hs : s.Rooted b) : (s.visited b).Rooted b := by
  intro r o hr hdef
  rcases record_visited_self hcov hb with ⟨-, hrec⟩ | ⟨-, hrec⟩ <;> rw [hrec] at hr
  · exact hs r o hr hdef
  · rwa [result, origin?_outgoing, if_neg hdef] at hr

end Session

end Reaching
