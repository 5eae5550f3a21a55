/-
What a replay of statements does to the definitions in front of them, told by
identities.

A definition is there after some effects if they make it themselves and do not
define its name again, or if it was there before and no effect defines its name
(`mem_identities_outgoing`). So what a replay adds does not depend on what it
starts from, and replaying over more gives more.
-/
import Reaching.Flow

namespace Reaching

/-! ## Sets of definitions -/

namespace Definitions

theorem mem_of_mem_insert {ds : Definitions} {d f : Definition} (h : f ∈ ds.insert d) :
    f ∈ ds ∨ f = d := by
  unfold insert at h
  split at h
  · exact .inl h
  · simpa using h

theorem mem_of_mem_union {ds es : Definitions} {f : Definition} (h : f ∈ ds.union es) :
    f ∈ ds ∨ f ∈ es := by
  unfold union at h
  induction es generalizing ds with
  | nil => exact .inl h
  | cons e es ih =>
    rcases ih h with hf | hf
    · rcases mem_of_mem_insert hf with hf | rfl
      · exact .inl hf
      · exact .inr (List.mem_cons_self ..)
    · exact .inr (List.mem_cons_of_mem _ hf)

theorem nodup_identities_insert {ds : Definitions} {d : Definition} (h : ds.identities.Nodup) :
    (ds.insert d).identities.Nodup := by
  unfold insert
  split
  · exact h
  · rename_i hd
    have hnot : d.identity ∉ ds.identities := fun hm => hd (has_iff.2 hm)
    simp only [identities, List.map_append, List.map_cons, List.map_nil]
    exact List.nodup_append.2 ⟨h, by simp, fun a ha b hb => by
      simp only [List.mem_singleton] at hb
      rintro rfl
      exact hnot (hb ▸ ha)⟩

theorem nodup_identities_union {ds es : Definitions} (h : ds.identities.Nodup) :
    (ds.union es).identities.Nodup := by
  unfold union
  induction es generalizing ds with
  | nil => exact h
  | cons e es ih => exact ih (nodup_identities_insert h)

theorem nodup_identities_filter {ds : Definitions} {f : Definition → Bool}
    (h : ds.identities.Nodup) : (identities (ds.filter f)).Nodup :=
  h.sublist (List.filter_sublist.map _)

end Definitions

/-! ## One effect -/

namespace Effect

/-- The effect makes a definition of a name. -/
def Defines (e : Effect) (name : Text) : Prop := ∃ d ∈ e.definitions, d.name = name

instance (e : Effect) (name : Text) : Decidable (e.Defines name) :=
  inferInstanceAs (Decidable (∃ d ∈ e.definitions, d.name = name))

/-- The effect makes a definition with an identity. -/
def Makes (e : Effect) (r : Reference) : Prop := r ∈ e.definitions.identities

theorem mem_of_mem_apply {e : Effect} {ds : Definitions} {d : Definition} (h : d ∈ e.apply ds) :
    d ∈ ds ∨ d ∈ e.definitions := by
  rcases Definitions.mem_of_mem_union h with h | h
  · exact .inl (List.mem_filter.1 h).1
  · exact .inr h

theorem nodup_identities_apply {e : Effect} {ds : Definitions} (h : ds.identities.Nodup) :
    (e.apply ds).identities.Nodup :=
  Definitions.nodup_identities_union (Definitions.nodup_identities_filter h)

/-- After an effect there are its own definitions, and those before it of names
that it does not define. -/
theorem mem_identities_apply {e : Effect} {ds : Definitions} {r : Reference} :
    r ∈ (e.apply ds).identities ↔ e.Makes r ∨ (r ∈ ds.identities ∧ ¬ e.Defines r.name) := by
  have hkept : r ∈ Definitions.identities
      (ds.filter fun d => !e.definitions.any fun f => f.name = d.name) ↔
      r ∈ ds.identities ∧ ¬ e.Defines r.name := by
    simp only [Definitions.identities, List.mem_map, List.mem_filter, Bool.not_eq_true',
      List.any_eq_false, decide_eq_true_eq]
    constructor
    · rintro ⟨d, ⟨hd, hfree⟩, rfl⟩
      refine ⟨⟨d, hd, rfl⟩, ?_⟩
      rintro ⟨f, hf, hname⟩
      exact hfree f hf hname
    · rintro ⟨⟨d, hd, rfl⟩, hfree⟩
      exact ⟨d, ⟨hd, fun f hf hname => hfree ⟨f, hf, hname⟩⟩, rfl⟩
  unfold apply
  rw [Definitions.mem_identities_union, hkept]
  exact or_comm

theorem mem_edges {e : Effect} {ds : Definitions} {x : Edge} :
    x ∈ e.edges ds ↔ ∃ d ∈ ds, d.name ∈ e.uses ∧ x = ⟨d.owner.span, e.span⟩ := by
  simp only [edges, List.mem_map, List.mem_filter, List.contains_eq_mem, decide_eq_true_eq]
  constructor
  · rintro ⟨d, ⟨hd, hu⟩, rfl⟩
    exact ⟨d, hd, hu, rfl⟩
  · rintro ⟨d, hd, hu, rfl⟩
    exact ⟨d, ⟨hd, hu⟩, rfl⟩

end Effect

/-! ## Several effects -/

/-- None of some effects defines a name. -/
def Clear (effects : List Effect) (name : Text) : Prop := ∀ e ∈ effects, ¬ e.Defines name

instance (effects : List Effect) (name : Text) : Decidable (Clear effects name) :=
  inferInstanceAs (Decidable (∀ e ∈ effects, ¬ e.Defines name))

@[simp] theorem clear_nil {name : Text} : Clear [] name := by simp [Clear]

@[simp] theorem clear_cons {e : Effect} {rest : List Effect} {name : Text} :
    Clear (e :: rest) name ↔ ¬ e.Defines name ∧ Clear rest name := by simp [Clear]

theorem outgoing_cons (e : Effect) (rest : List Effect) (ds : Definitions) :
    outgoing (e :: rest) ds = outgoing rest (e.apply ds) := rfl

theorem mem_of_mem_outgoing {effects : List Effect} {ds : Definitions} {d : Definition}
    (h : d ∈ outgoing effects ds) : d ∈ ds ∨ ∃ e ∈ effects, d ∈ e.definitions := by
  induction effects generalizing ds with
  | nil => exact .inl h
  | cons e rest ih =>
    rcases ih h with hd | ⟨f, hf, hd⟩
    · rcases Effect.mem_of_mem_apply hd with hd | hd
      · exact .inl hd
      · exact .inr ⟨e, List.mem_cons_self .., hd⟩
    · exact .inr ⟨f, List.mem_cons_of_mem _ hf, hd⟩

theorem nodup_identities_outgoing {effects : List Effect} {ds : Definitions}
    (h : ds.identities.Nodup) : (outgoing effects ds).identities.Nodup := by
  induction effects generalizing ds with
  | nil => exact h
  | cons e rest ih => exact ih (Effect.nodup_identities_apply h)

/-- **What is there after a replay**: what the effects leave by themselves, and
what was there before of names that none of them defines. -/
theorem mem_identities_outgoing {effects : List Effect} {ds : Definitions} {r : Reference} :
    r ∈ (outgoing effects ds).identities ↔
      r ∈ (outgoing effects []).identities ∨ (r ∈ ds.identities ∧ Clear effects r.name) := by
  induction effects generalizing ds with
  | nil => simp [outgoing, Definitions.identities]
  | cons e rest ih =>
    have hnone : r ∉ Definitions.identities [] := by simp [Definitions.identities]
    rw [outgoing_cons, outgoing_cons, ih, @ih (e.apply []), Effect.mem_identities_apply,
      Effect.mem_identities_apply, clear_cons]
    simp only [hnone, false_and, or_false, or_and_right, or_assoc, and_assoc]

/-- One more effect at the end of a replay. -/
theorem outgoing_take_succ {effects : List Effect} {i : Nat} {e : Effect}
    (he : effects[i]? = some e) (ds : Definitions) :
    outgoing (effects.take (i + 1)) ds = e.apply (outgoing (effects.take i) ds) := by
  rw [List.take_add_one, he]
  simp [outgoing]

theorem mem_edgesAlong {effects : List Effect} {ds : Definitions} {x : Edge} :
    x ∈ edgesAlong effects ds ↔
      ∃ (i : Nat) (e : Effect), effects[i]? = some e ∧
        x ∈ e.edges (outgoing (effects.take i) ds) := by
  induction effects generalizing ds with
  | nil => simp [edgesAlong]
  | cons e rest ih =>
    rw [edgesAlong, List.mem_append, ih]
    constructor
    · rintro (h | ⟨i, f, hf, h⟩)
      · exact ⟨0, e, rfl, h⟩
      · exact ⟨i + 1, f, hf, h⟩
    · rintro ⟨i, f, hf, h⟩
      cases i with
      | zero =>
        obtain rfl : e = f := by simpa using hf
        exact .inl h
      | succ i => exact .inr ⟨i, f, hf, h⟩

end Reaching
