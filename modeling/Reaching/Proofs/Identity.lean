/-
Which definitions have the same name and the same key.

Sets tell definitions apart by name and span. A key is the span in writing, and says more than
the span in one case: the columns of a declared definition may be given as truth values, which
count as one and zero but are printed as they were given. It says nothing in another case: a span with
an integer of too many digits has no key. Elsewhere the name and the key tell apart what the sets do
(`Definition.key_identifies_iff`).
-/
import Reaching.Proofs.Declarations
import Reaching.Proofs.Keys

namespace Reaching

open Code

namespace Definition

variable {d e : Definition}

/-! ## Names and keys -/

/-- Two definitions have one name and one key. -/
def PrintedAlike (d e : Definition) : Prop := d.name = e.name ∧ ∃ k, d.key? = some k ∧ e.key? = some k

/-- Two definitions have one name, and spans that would be written alike if integers could have
any number of digits. -/
def SpelledAlike (d e : Definition) : Prop :=
  d.name = e.name ∧ d.span.spelling d.truths = e.span.spelling e.truths

theorem printedAlike_iff (hd : d.span.Fits d.truths) (he : e.span.Fits e.truths) : d.PrintedAlike e ↔
    d.name = e.name ∧ d.span = e.span ∧ d.truths = e.truths ∧ d.key?.isSome = true := by
  refine and_congr_right fun _ => ?_
  rw [Option.isSome_iff_exists]
  constructor
  · rintro ⟨k, hk, hk'⟩
    obtain ⟨hspan, htruths⟩ := (Span.key?_eq_key?_iff hd he hk).1 hk'
    exact ⟨hspan, htruths, k, hk⟩
  · rintro ⟨hspan, htruths, k, hk⟩
    exact ⟨k, hk, (Span.key?_eq_key?_iff hd he hk).2 ⟨hspan, htruths⟩⟩

/-! ## Sets -/

/-- Two definitions are the same in every set: whatever holds the first one is left as it is when
the second one joins it. -/
def SameInSets (d e : Definition) : Prop := ∀ ds : Definitions, d ∈ ds → ds.insert e = ds

theorem sameInSets_iff : d.SameInSets e ↔ d.identity = e.identity := by
  constructor
  · intro h
    have hmem : e.identity ∈ Definitions.identities [d] := by
      rw [← h [d] (List.mem_singleton_self d)]
      exact Definitions.mem_identities_insert.2 (.inr rfl)
    exact (List.mem_singleton.1 hmem).symm
  · intro h ds hd
    exact if_pos (Definitions.has_iff.2 (h ▸ List.mem_map_of_mem hd))

end Definition

/-! ## Definitions that statements make -/

/-- A value that stands for an integer as a truth value stands for zero or one. -/
theorem Declaration.Stands.zero_or_one {v : Json} {n : Int} (h : Stands v n true) : n = 0 ∨ n = 1 := by
  cases h with
  | truth b => cases b <;> simp

namespace Code.Stmt

variable {rules : Rules} {s : Stmt} {d : Definition}

/-- A statement makes a definition: a call in it changes the name, a literal in it declares it, or
it binds it by its kind. Of those that are the same in sets the first one is in the set that the
statement is left with. -/
def Makes (rules : Rules) (s : Stmt) (d : Definition) : Prop :=
  d ∈ mutationDefinitions rules s ∨ s.Declares d ∨ d ∈ s.ownDefinitions

theorem makes_of_mem_definitions (h : d ∈ s.definitions rules) : s.Makes rules d := by
  rcases Definitions.mem_of_mem_union h with h | h
  · exact (Definitions.mem_of_mem_union h).imp_right fun h =>
      .inl ((declaredDefinitions_exact s).2.2.1 d h)
  · exact .inr (.inr h)

/-- **The set that a statement is left with has one definition for all that it makes and that are
the same in sets.** -/
theorem mem_identities_definitions_iff {r : Reference} :
    r ∈ (s.definitions rules).identities ↔ ∃ d, s.Makes rules d ∧ d.identity = r := by
  constructor
  · intro h
    obtain ⟨d, hd, rfl⟩ := List.mem_map.1 h
    exact ⟨d, makes_of_mem_definitions hd, rfl⟩
  · rintro ⟨d, hd, rfl⟩
    rw [definitions, Definitions.mem_identities_union, Definitions.mem_identities_union, or_assoc]
    exact hd.imp List.mem_map_of_mem
      (.imp ((declaredDefinitions_exact s).2.2.2 d) List.mem_map_of_mem)

/-- Only literals give columns as truth values. -/
theorem truths_of_mem_ownDefinitions (h : d ∈ s.ownDefinitions) : d.truths = {} := by
  simp only [ownDefinitions] at h
  split at h
  · obtain ⟨r, -, rfl⟩ := List.mem_map.1 h
    rfl
  · obtain rfl := List.mem_singleton.1 h
    rfl
  · obtain ⟨i, -, rfl⟩ := List.mem_map.1 h
    rfl

/-- What is declared was read off a position. -/
theorem Declares.fits (h : s.Declares d) : d.span.Fits d.truths := by
  obtain ⟨text, marked, span, -, list, ⟨payload, json, items, -, -, -, hreads⟩, e, he, rfl⟩ := h
  obtain ⟨i, hi, rfl⟩ := List.getElem_of_mem he
  obtain ⟨hlength, hreads⟩ := List.forall₂_iff_get.1 hreads
  obtain ⟨_, _, _, _, _, _, _, _, _, _, _, hfirst, _, hlast⟩ := hreads i (hlength ▸ hi) hi
  constructor
  · intro htruth
    exact Declaration.Stands.zero_or_one (htruth ▸ hfirst)
  · intro htruth
    exact Declaration.Stands.zero_or_one (htruth ▸ hlast)

theorem Makes.declares_or_truths (h : s.Makes rules d) : s.Declares d ∨ d.truths = {} := by
  rcases h with h | h | h
  · obtain ⟨r, -, rfl⟩ := mem_mutationDefinitions.1 h
    exact .inr rfl
  · exact .inl h
  · exact .inr (truths_of_mem_ownDefinitions h)

theorem Makes.fits (h : s.Makes rules d) : d.span.Fits d.truths := by
  rcases h.declares_or_truths with h | h
  · exact h.fits
  · constructor <;> rw [h] <;> exact fun h => nomatch h

theorem Makes.truths_of_kind (h : s.Makes rules d) (hkind : d.kind ≠ .declared) : d.truths = {} := by
  refine h.declares_or_truths.resolve_left ?_
  rintro ⟨text, marked, span, -, list, -, e, -, rfl⟩
  exact hkind rfl

end Code.Stmt

/-! ## What names and keys tell apart -/

/-- A list that declares one name twice at one place, the second time with a truth value for the
first column. -/
def Declaration.twice : Text :=
  Text.ofString "[\x7b\"name\": \"z\", \"pos\": [[0, 1], [0, 2]]\x7d, " ++
    Text.ofString "\x7b\"name\": \"z\", \"pos\": [[0, true], [0, 2]]\x7d]"

/-- A literal with a list. -/
def Declaration.quoted (list : Text) : Text := opening ++ list ++ [.char '"']

/-- A literal with that list. -/
def Code.Stmt.declaredTwice : Stmt :=
  .at ⟨1, 0, 1, 80⟩ (.expr (.at ⟨1, 0, 1, 80⟩ (.constant (.text (Declaration.quoted Declaration.twice) false))))

/-- An assignment to this name at this place. -/
def Code.Stmt.boundThere : Stmt :=
  .at ⟨1, 1, 1, 6⟩ (.assign [.at ⟨1, 1, 1, 2⟩ (.name "z")] (.at ⟨1, 5, 1, 6⟩ (.constant .nothing)))

theorem Declaration.read_of_payload {text payload : Text} {list : List Declared}
    (hpayload : payload? text = some payload) (hlist : declarations payload = .ok list) :
    read text = .declares list := by
  simp only [read, hpayload, hlist]

theorem Declaration.read_twice : read (quoted twice) =
    .declares [⟨"z", ⟨0, 1, 0, 2⟩, {}⟩, ⟨"z", ⟨0, 1, 0, 2⟩, ⟨true, false⟩⟩] :=
  have hpayload : payload? (quoted twice) = some twice := by decide +kernel
  read_of_payload hpayload (by decide +kernel)

theorem Code.Stmt.declaredTwice_makes {d : Declaration.Declared}
    (hd : d ∈ [⟨"z", ⟨0, 1, 0, 2⟩, {}⟩, ⟨"z", ⟨0, 1, 0, 2⟩, ⟨true, false⟩⟩]) (rules : Rules) :
    declaredTwice.Makes rules (d.definition 1 declaredTwice) :=
  .inr (.inl ⟨_, _, _, .single (List.mem_singleton_self _), _,
    Declaration.read_eq_declares_iff.1 Declaration.read_twice, d, hd, rfl⟩)

/-- **What the name and the key of a definition tell apart.** Any statements make definitions under
any rules. Those of one name and one key are the same in every set. The converse holds of two of
them just when, if they are the same in every set, the same columns of both were given as truth
values, and they have a key. But for the last, this holds of the spans as they would be written with integers
of any length as well. So the name and the key tell apart all definitions with keys that no literal
declares. -/
theorem Definition.key_identifies_iff {rules rules' : Rules} {s s' : Stmt} {d e : Definition}
    (hd : s.Makes rules d) (he : s'.Makes rules' e) :
    (d.PrintedAlike e → d.SameInSets e) ∧
    ((d.SameInSets e ↔ d.PrintedAlike e) ↔
      (d.SameInSets e → d.truths = e.truths ∧ d.key?.isSome = true)) ∧
    (d.SpelledAlike e → d.SameInSets e) ∧
    ((d.SameInSets e ↔ d.SpelledAlike e) ↔ (d.SameInSets e → d.truths = e.truths)) ∧
    (d.kind ≠ .declared → e.kind ≠ .declared → (d.SameInSets e ↔ d.SpelledAlike e) ∧
      (d.key?.isSome = true → (d.SameInSets e ↔ d.PrintedAlike e))) := by
  have hsame : d.SameInSets e ↔ d.name = e.name ∧ d.span = e.span := by
    rw [sameInSets_iff, identity, identity, Reference.mk.injEq]
  have hprinted : d.PrintedAlike e ↔ d.SameInSets e ∧ d.truths = e.truths ∧ d.key?.isSome = true := by
    rw [hsame, printedAlike_iff hd.fits he.fits, and_assoc]
  have hspelled : d.SpelledAlike e ↔ d.SameInSets e ∧ d.truths = e.truths := by
    rw [hsame, SpelledAlike, Span.spelling_inj hd.fits he.fits, and_assoc]
  have hprintedIff : (d.SameInSets e ↔ d.PrintedAlike e) ↔
      (d.SameInSets e → d.truths = e.truths ∧ d.key?.isSome = true) := by
    rw [hprinted, iff_self_and]
  have hspelledIff : (d.SameInSets e ↔ d.SpelledAlike e) ↔ (d.SameInSets e → d.truths = e.truths) := by
    rw [hspelled, iff_self_and]
  refine ⟨fun h => (hprinted.1 h).1, hprintedIff, fun h => (hspelled.1 h).1, hspelledIff,
    fun hd' he' => ?_⟩
  have htruths : d.truths = e.truths := by
    rw [hd.truths_of_kind hd', he.truths_of_kind he']
  exact ⟨hspelledIff.2 fun _ => htruths, fun hkey => hprintedIff.2 fun _ => ⟨htruths, hkey⟩⟩

/-- The hypotheses of `key_identifies_iff` hold of a definition that a literal declares and of one
that an assignment makes. Their columns are numbers, so the name and the key tell apart what the
sets do. -/
theorem Code.Stmt.boundThere_key_identifies :
    ∃ d e, declaredTwice.Makes .default d ∧ boundThere.Makes {} e ∧ d.kind = .declared ∧ e.kind = .variable ∧
      d.key? = some "1:1-1:2" ∧ (d.SameInSets e ↔ d.PrintedAlike e) := by
  have hd := declaredTwice_makes (d := ⟨"z", ⟨0, 1, 0, 2⟩, {}⟩) (by decide) .default
  have he : boundThere.Makes {} ⟨"z", ⟨1, 1, 1, 2⟩, .variable, boundThere, {}⟩ :=
    .inr (.inr (List.mem_map.2 ⟨⟨"z", ⟨1, 1, 1, 2⟩⟩, by decide +kernel, rfl⟩))
  have hkey : (Declaration.Declared.definition ⟨"z", ⟨0, 1, 0, 2⟩, {}⟩ 1 declaredTwice).key? =
      some "1:1-1:2" := by decide +kernel
  refine ⟨_, _, hd, he, rfl, rfl, hkey, (Definition.key_identifies_iff hd he).2.1.2 fun _ => ⟨rfl, ?_⟩⟩
  rw [hkey]
  rfl

/-- A literal makes two definitions that are the same in every set and have different keys. The set
of its statement holds the first one only. -/
theorem Code.Stmt.declaredTwice_keys_differ :
    ∃ d e, declaredTwice.Makes .default d ∧ declaredTwice.Makes .default e ∧ d.SameInSets e ∧
      d.name = e.name ∧ d.key? = some "1:1-1:2" ∧ e.key? = some "1:True-1:2" ∧
      ¬ (d.SameInSets e ↔ d.PrintedAlike e) ∧
      (declaredTwice.definitions .default).map Definition.key? = [some "1:1-1:2"] := by
  have hd := declaredTwice_makes (d := ⟨"z", ⟨0, 1, 0, 2⟩, {}⟩) (by decide) .default
  have he := declaredTwice_makes (d := ⟨"z", ⟨0, 1, 0, 2⟩, ⟨true, false⟩⟩) (by decide) .default
  have hsame : (Declaration.Declared.definition ⟨"z", ⟨0, 1, 0, 2⟩, {}⟩ 1 declaredTwice).SameInSets
      (Declaration.Declared.definition ⟨"z", ⟨0, 1, 0, 2⟩, ⟨true, false⟩⟩ 1 declaredTwice) :=
    Definition.sameInSets_iff.2 rfl
  have hnumber : (Declaration.Declared.definition ⟨"z", ⟨0, 1, 0, 2⟩, {}⟩ 1 declaredTwice).key? =
      some "1:1-1:2" := by decide +kernel
  have htruth : (Declaration.Declared.definition ⟨"z", ⟨0, 1, 0, 2⟩, ⟨true, false⟩⟩ 1 declaredTwice).key? =
      some "1:True-1:2" := by decide +kernel
  refine ⟨_, _, hd, he, hsame, rfl, hnumber, htruth, fun h => ?_, by decide +kernel⟩
  obtain ⟨-, k, hk, hk'⟩ := h.1 hsame
  rw [hnumber] at hk
  rw [htruth, ← hk] at hk'
  exact absurd hk' (by decide)

end Reaching
