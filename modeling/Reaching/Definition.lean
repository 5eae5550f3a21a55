/-
Definitions of names, and sets of them.

A definition is identified by its name and its span. What made it and which
statement owns it are carried along but do not tell definitions apart, so a
set keeps the first of several with the same name and span.
-/
import Reaching.Code.Stmt

namespace Reaching

/-- What made a definition. -/
inductive Kind where
  | variable | classType | function | importName | mutation | declared
  deriving DecidableEq, Repr, Inhabited

/-- The printed form of a kind. -/
def Kind.text : Kind → String
  | .variable => "variable"
  | .classType => "class"
  | .function => "function"
  | .importName => "import"
  | .mutation => "mutation"
  | .declared => "magic"

/-- All kinds with the names by which they may be given. -/
def Kind.names : List (String × Kind) :=
  [("VARIABLE", .variable), ("CLASS", .classType), ("FUNCTION", .function),
    ("IMPORT", .importName), ("MUTATION", .mutation), ("MAGIC", .declared)]

/-- The kind with a given name. -/
def Kind.named? (name : String) : Option Kind := (Kind.names.find? fun k => k.1 = name).map (·.2)

/-- A name that is read, or a definition's name, with its span. -/
structure Reference where
  name : Text
  span : Span
  deriving DecidableEq, Repr, Inhabited

/-- References are compared by span, then by name. -/
def Reference.before (a b : Reference) : Bool :=
  if a.span = b.span then a.name.isUpTo b.name else decide (a.span ≤ b.span)

/-- A place in the program that binds a name. -/
structure Definition where
  name : Text
  span : Span
  kind : Kind
  owner : Code.Stmt
  truths : TruthColumns := {}
  deriving Inhabited

namespace Definition

/-- What tells definitions apart. -/
def identity (d : Definition) : Reference := ⟨d.name, d.span⟩

/-- The printed form of a definition's span. -/
def key? (d : Definition) : Option String := d.span.key? d.truths

end Definition

/-! ## Sets -/

/-- A set of definitions: a list without two of the same identity. -/
abbrev Definitions := List Definition

namespace Definitions

/-- The identities in a set. -/
def identities (ds : Definitions) : List Reference := ds.map Definition.identity

/-- Whether a set holds a definition with some identity. -/
def has (ds : Definitions) (r : Reference) : Bool := ds.any fun d => d.identity = r

/-- A set with one more definition, unless one of that identity is there. -/
def insert (ds : Definitions) (d : Definition) : Definitions :=
  if ds.has d.identity then ds else ds ++ [d]

/-- A set with those of another one that are not there yet. -/
def union (ds es : Definitions) : Definitions := es.foldl insert ds

/-- The set of some definitions; the first of each identity counts. -/
def ofList (list : List Definition) : Definitions := union [] list

/-- Whether two sets hold the same identities. -/
def sameAs (ds es : Definitions) : Bool :=
  ds.all (fun d => Definitions.has es d.identity) && es.all fun e => ds.has e.identity

/-- The definitions of a set by span, then by name. -/
def sorted (ds : Definitions) : List Definition :=
  ds.mergeSort fun d e => d.identity.before e.identity

theorem has_iff {ds : Definitions} {r : Reference} : ds.has r = true ↔ r ∈ ds.identities := by
  simp [has, identities]

theorem sameAs_iff {ds es : Definitions} :
    ds.sameAs es = true ↔ ∀ r, r ∈ ds.identities ↔ r ∈ Definitions.identities es := by
  simp only [sameAs, Bool.and_eq_true, List.all_eq_true, has_iff]
  constructor
  · rintro ⟨h1, h2⟩ r
    constructor
    · intro hr
      obtain ⟨d, hd, rfl⟩ := List.mem_map.1 hr
      exact h1 d hd
    · intro hr
      obtain ⟨e, he, rfl⟩ := List.mem_map.1 hr
      exact h2 e he
  · intro h
    exact ⟨fun d hd => (h _).1 (List.mem_map_of_mem hd), fun e he => (h _).2 (List.mem_map_of_mem he)⟩

theorem mem_identities_insert {ds : Definitions} {d : Definition} {r : Reference} :
    r ∈ (ds.insert d).identities ↔ r ∈ ds.identities ∨ r = d.identity := by
  unfold insert
  split
  · rename_i h
    have := has_iff.1 h
    exact ⟨.inl, fun hr => hr.elim id fun he => he ▸ this⟩
  · simp [identities]

theorem mem_identities_union {ds es : Definitions} {r : Reference} :
    r ∈ (ds.union es).identities ↔ r ∈ ds.identities ∨ r ∈ Definitions.identities es := by
  unfold union
  induction es generalizing ds with
  | nil => simp [identities]
  | cons e es ih =>
    rw [List.foldl_cons, ih, mem_identities_insert]
    simp [identities, or_assoc, eq_comm]

end Definitions

/-! ## References -/

/-- The references of a list, each once, by span and then by name. -/
def Reference.sortedSet (list : List Reference) : List Reference :=
  (list.mergeSort Reference.before).eraseReps

end Reaching
