/-
Which JSON values are rules, and which rules they are.

A rule is read off an object field by field, and the checks are made in a fixed order. What
they let through is said here without an order: `Rule.Reads` relates a rule to the members of
an object it is read from, `Rules.Reads` a list of rules to a value. Reading succeeds just
where something is so related (`Rule.ofMembers_eq_ok_iff`, `Rules.ofJson_eq_ok_iff`), and what
is written is read back because it is so related too (`Rules.reads_toJson`).

Where reading fails, the error is about something that is in the value: an entry that is no
object, or a field of an entry with the wrong shape (`RuleError.Blames`). An entry that is no object or
has no name is shown whole. If an integer of too many digits stands in it, it cannot be, and there is
no announced error (`Rules.Unshowable`).
-/
import Mathlib.Data.Set.List
import Reaching.Proofs.LongIntegers
import Reaching.Rules

namespace Reaching

/-! ## Lists of items -/

/-- A member is absent and there are no items, or it is the array of some items. -/
def Listed {α : Type} (shape : α → Json) (value : Option Json) (items : List α) : Prop :=
  (value = none ∧ items = []) ∨ value = some (.arr (items.map shape))

theorem mapM_eq_some_iff {α : Type} {item : Json → Option α} {shape : α → Json}
    (hitem : ∀ v a, item v = some a ↔ v = shape a) {values : List Json} {items : List α} :
    values.mapM item = some items ↔ values = items.map shape := by
  induction values generalizing items with
  | nil => simp [eq_comm]
  | cons v rest ih =>
    simp only [List.mapM_cons, Option.bind_eq_bind, Option.pure_def, Option.bind_eq_some_iff, hitem, ih,
      Option.some.injEq]
    constructor
    · rintro ⟨a, rfl, as, rfl, rfl⟩
      rfl
    · cases items with
      | nil => simp
      | cons a as =>
        intro h
        obtain ⟨rfl, rfl⟩ : v = shape a ∧ rest = as.map shape := by simpa using h
        exact ⟨a, rfl, as, rfl, rfl⟩

theorem Rule.itemsOf?_eq_some_iff {α : Type} {item : Json → Option α} {shape : α → Json}
    (hitem : ∀ v a, item v = some a ↔ v = shape a) (value : Option Json) (items : List α) :
    Rule.itemsOf? item value = some items ↔ Listed shape value items := by
  rcases value with _ | value
  · simp [Rule.itemsOf?, Listed, eq_comm]
  · cases value with
    | arr values => simp [Rule.itemsOf?, Listed, mapM_eq_some_iff hitem]
    | _ => simp [Rule.itemsOf?, Listed]

theorem Rule.positionOf?_eq_some_iff (v : Json) (n : Nat) :
    Rule.positionOf? v = some n ↔ v = .int n := by
  cases v with
  | int i =>
    simp only [Rule.positionOf?, Json.int.injEq]
    split
    · simp only [Option.some.injEq]
      omega
    · simp only [reduceCtorEq, false_iff]
      omega
  | _ => simp [Rule.positionOf?]

theorem Rule.keywordOf?_eq_some_iff (v : Json) (word : Text) :
    Rule.keywordOf? v = some word ↔ v = .str word := by
  cases v <;> simp [Rule.keywordOf?]

/-! ## Rules -/

/-- A rule is what the members of an object say. Members that are absent stand for empty
lists and for a receiver that is not changed; members with other keys do not matter. -/
structure Rule.Reads (r : Rule) (members : List (Text × Json)) : Prop where
  function : Json.lookup members "functionName" = some (.str r.function)
  named : r.function ≠ []
  positions : Listed (fun n : Nat => .int n) (Json.lookup members "positionalArgumentsMutated") r.positions
  keywords : Listed .str (Json.lookup members "keywordArgumentsMutated") r.keywords
  receiver : r.mutatesReceiver = true ↔
    ∃ value, Json.lookup members "mutatesInstance" = some value ∧ value.isTruthy = true

theorem any_isTruthy_iff (value : Option Json) :
    value.any Json.isTruthy = true ↔ ∃ v, value = some v ∧ v.isTruthy = true := by
  cases value <;> simp

/-- **A rule is read from an object just when it is what the object says.** -/
theorem Rule.ofMembers_eq_ok_iff {members : List (Text × Json)} {r : Rule} :
    Rule.ofMembers members = .ok r ↔ r.Reads members := by
  have hpositions := Rule.itemsOf?_eq_some_iff Rule.positionOf?_eq_some_iff
    (Json.lookup members "positionalArgumentsMutated")
  have hkeywords := Rule.itemsOf?_eq_some_iff Rule.keywordOf?_eq_some_iff
    (Json.lookup members "keywordArgumentsMutated")
  have hreceiver := any_isTruthy_iff (Json.lookup members "mutatesInstance")
  constructor
  · intro h
    unfold Rule.ofMembers at h
    split at h
    · rename_i name hname
      split at h
      · cases h
      · rename_i hnamed
        split at h
        · cases h
        · rename_i positions hps
          split at h
          · cases h
          · rename_i keywords hks
            obtain rfl := Except.ok.inj h
            exact ⟨hname, by simpa using hnamed, (hpositions _).1 hps, (hkeywords _).1 hks, hreceiver⟩
    · cases h
  · rintro ⟨hname, hnamed, hps, hks, hmutates⟩
    obtain ⟨function, mutates, positions, keywords⟩ := r
    have hfun : function.isEmpty = false := by simpa using hnamed
    have hmutates : (Json.lookup members "mutatesInstance").any Json.isTruthy = mutates :=
      Bool.eq_iff_iff.2 (hreceiver.trans hmutates.symm)
    simp only [Rule.ofMembers, hname, hfun, (hpositions _).2 hps, (hkeywords _).2 hks, hmutates]
    rfl

/-- What is written of a rule with a name says what the rule is. -/
theorem Rule.reads_toJson {r : Rule} (h : r.function ≠ []) :
    ∃ members, r.toJson = .obj members ∧ r.Reads members := by
  refine ⟨_, rfl, rfl, h, .inr rfl, .inr rfl, ?_⟩
  simp [Json.lookup, Json.isTruthy]

theorem Rule.ofJson_eq_ok_iff {v : Json} {r : Rule} :
    Rule.ofJson v = .ok r ↔ ∃ members, v = .obj members ∧ r.Reads members := by
  cases v with
  | obj members => simp [Rule.ofJson, Rule.ofMembers_eq_ok_iff]
  | _ => simp [Rule.ofJson]

/-! ## Lists of rules -/

/-- Rules are what a value says: an object whose entries, if it has any, are objects that
say what the rules are, one by one and in order. -/
def Rules.Reads (rules : Rules) (v : Json) : Prop :=
  ∃ members, v = .obj members ∧
    ((Json.lookup members "functionConfigs" = none ∧ rules.list = []) ∨
      ∃ entries, Json.lookup members "functionConfigs" = some (.arr entries) ∧
        List.Forall₂ (fun entry r => ∃ fields, entry = .obj fields ∧ Rule.Reads r fields)
          entries rules.list)

/-- **Rules are read from a value just when they are what the value says.** -/
theorem Rules.ofJson_eq_ok_iff {v : Json} {rules : Rules} :
    Rules.ofJson v = .ok rules ↔ rules.Reads v := by
  obtain ⟨list⟩ := rules
  cases v with
  | obj members =>
    cases hlookup : Json.lookup members "functionConfigs" with
    | none => simp [Rules.ofJson, Rules.Reads, hlookup, Rules.empty, eq_comm]
    | some value =>
      cases value with
      | arr entries =>
        have hlist : (entries.mapM Rule.ofJson).map Rules.mk = .ok ⟨list⟩ ↔
            entries.mapM Rule.ofJson = .ok list := by
          cases entries.mapM Rule.ofJson <;> simp [Except.map]
        simp [Rules.ofJson, Rules.Reads, hlookup, hlist, mapM_eq_ok_iff, Rule.ofJson_eq_ok_iff]
      | _ => simp [Rules.ofJson, Rules.Reads, hlookup]
  | _ => simp [Rules.ofJson, Rules.Reads]

/-- What is written of rules with names says what the rules are. -/
theorem Rules.reads_toJson {rules : Rules} (h : ∀ r ∈ rules.list, r.function ≠ []) :
    rules.Reads rules.toJson := by
  refine ⟨_, rfl, .inr ⟨rules.list.map Rule.toJson, rfl, ?_⟩⟩
  rw [List.forall₂_map_left_iff, List.forall₂_same]
  intro r hr
  exact Rule.reads_toJson (h r hr)

/-- Rules that are read have names. -/
theorem Rules.Reads.named {rules : Rules} {v : Json} (h : rules.Reads v) :
    ∀ r ∈ rules.list, r.function ≠ [] := by
  obtain ⟨members, -, ⟨-, hnone⟩ | ⟨entries, -, hall⟩⟩ := h
  · simp [hnone]
  · generalize rules.list = list at hall
    induction hall with
    | nil => simp
    | cons hread _ ih =>
      obtain ⟨fields, -, hread⟩ := hread
      exact List.forall_mem_cons.2 ⟨hread.named, ih⟩

/-! ## What is accepted -/

/-- A member is absent, or an array of items of one sort. -/
def IsListOf (sort : Json → Prop) (value : Option Json) : Prop :=
  ∀ v, value = some v → ∃ items, v = .arr items ∧ ∀ i ∈ items, sort i

/-- Some members name a rule, with a text that is not empty. -/
def IsNamed (members : List (Text × Json)) : Prop :=
  ∃ name, Json.lookup members "functionName" = some (.str name) ∧ name ≠ []

/-- Some members describe a rule: it has a name that is not empty, and its positions and
keywords, if they are given, are arrays of numbers that are not negative and of texts. -/
structure IsRule (members : List (Text × Json)) : Prop where
  named : IsNamed members
  positions : IsListOf (fun i => ∃ n : Int, i = .int n ∧ 0 ≤ n)
    (Json.lookup members "positionalArgumentsMutated")
  keywords : IsListOf (fun i => ∃ word, i = .str word) (Json.lookup members "keywordArgumentsMutated")

/-- A value describes rules: it is an object, and its entries, if they are given, are an
array of objects that describe one rule each. -/
def IsRules (v : Json) : Prop :=
  ∃ members, v = .obj members ∧ IsListOf (fun entry => ∃ fields, entry = .obj fields ∧ IsRule fields)
    (Json.lookup members "functionConfigs")

theorem exists_listed_iff {α : Type} (shape : α → Json) (value : Option Json) :
    (∃ items, Listed shape value items) ↔ IsListOf (fun i => ∃ a, shape a = i) value := by
  have hitems : ∀ values : List Json,
      (∃ items : List α, values = items.map shape) ↔ ∀ i ∈ values, ∃ a, shape a = i := by
    intro values
    have := Set.ext_iff.1 (Set.range_list_map shape) values
    simpa [eq_comm] using this
  rcases value with _ | v
  · simp [Listed, IsListOf]
  · cases v with
    | arr values => simp [Listed, IsListOf, ← hitems]
    | _ => simp [Listed, IsListOf]

theorem exists_reads_iff {members : List (Text × Json)} : (∃ r : Rule, r.Reads members) ↔ IsRule members := by
  have hpositions := exists_listed_iff (fun n : Nat => Json.int n)
    (Json.lookup members "positionalArgumentsMutated")
  have hkeywords := exists_listed_iff Json.str (Json.lookup members "keywordArgumentsMutated")
  have hnumber : ∀ i : Json, (∃ n : Nat, Json.int n = i) ↔ ∃ n : Int, i = .int n ∧ 0 ≤ n := by
    intro i
    constructor
    · rintro ⟨n, rfl⟩
      exact ⟨n, rfl, Int.natCast_nonneg n⟩
    · rintro ⟨n, rfl, hn⟩
      exact ⟨n.toNat, by rw [Int.toNat_of_nonneg hn]⟩
  have htext : ∀ i : Json, (∃ word, Json.str word = i) ↔ ∃ word, i = .str word :=
    fun i => exists_congr fun _ => eq_comm
  simp only [hnumber] at hpositions
  simp only [htext] at hkeywords
  constructor
  · rintro ⟨r, hr⟩
    exact ⟨⟨_, hr.function, hr.named⟩, hpositions.1 ⟨_, hr.positions⟩, hkeywords.1 ⟨_, hr.keywords⟩⟩
  · rintro ⟨⟨name, hname, hnamed⟩, hps, hks⟩
    obtain ⟨positions, hps⟩ := hpositions.2 hps
    obtain ⟨keywords, hks⟩ := hkeywords.2 hks
    exact ⟨⟨name, (Json.lookup members "mutatesInstance").any Json.isTruthy, positions, keywords⟩,
      hname, hnamed, hps, hks, any_isTruthy_iff _⟩

/-- **Some rules are what a value says just when it describes rules.** -/
theorem Rules.exists_reads_iff {v : Json} : (∃ rules : Rules, rules.Reads v) ↔ IsRules v := by
  have hentry : ∀ entry : Json, (∃ r : Rule, ∃ fields, entry = .obj fields ∧ r.Reads fields) ↔
      ∃ fields, entry = .obj fields ∧ IsRule fields := by
    intro entry
    rw [exists_comm]
    exact exists_congr fun fields => by rw [exists_and_left, Reaching.exists_reads_iff]
  constructor
  · rintro ⟨rules, members, rfl, ⟨hnone, -⟩ | ⟨entries, hentries, hall⟩⟩
    · exact ⟨members, rfl, fun value hvalue => by simp [hnone] at hvalue⟩
    · refine ⟨members, rfl, fun value hvalue => ⟨entries, ?_, ?_⟩⟩
      · exact Option.some.inj (hvalue.symm.trans hentries)
      · intro entry hmem
        exact (hentry entry).1 (exists_forall₂_iff.1 ⟨_, hall⟩ entry hmem)
  · rintro ⟨members, rfl, hlist⟩
    cases hlookup : Json.lookup members "functionConfigs" with
    | none => exact ⟨.empty, members, rfl, .inl ⟨hlookup, rfl⟩⟩
    | some value =>
      obtain ⟨entries, rfl, hall⟩ := hlist value hlookup
      obtain ⟨list, hlist⟩ := exists_forall₂_iff.2 fun entry hmem => (hentry entry).2 (hall entry hmem)
      exact ⟨⟨list⟩, members, rfl, .inr ⟨entries, hlookup, hlist⟩⟩

/-! ## What is refused -/

/-- A value is one of the entries from which rules are read. -/
def IsEntry (v entry : Json) : Prop :=
  ∃ members entries, v = .obj members ∧ Json.lookup members "functionConfigs" = some (.arr entries) ∧
    entry ∈ entries

/-- An entry that is shown whole if it is complained of: it is no object, or its members name no
rule. -/
def IsNameless (entry : Json) : Prop := ∀ fields, entry = .obj fields → ¬ IsNamed fields

/-- What an error complains of is so: of the value as a whole, of its list of entries, or of
an entry, which the error shows or names. -/
def RuleError.Blames (v : Json) : RuleError → Prop
  | .rulesNotObject => ∀ members, v ≠ .obj members
  | .listNotArray => ∃ members value, v = .obj members ∧
      Json.lookup members "functionConfigs" = some value ∧ ∀ entries, value ≠ .arr entries
  | .ruleNotObject entry shown => IsEntry v entry ∧ (∀ fields, entry ≠ .obj fields) ∧
      entry.literal? = some shown
  | .noFunctionName entry shown => ∃ fields, entry = .obj fields ∧ IsEntry v entry ∧ ¬ IsNamed fields ∧
      entry.literal? = some shown
  | .badPositions function => ∃ fields, IsEntry v (.obj fields) ∧
      Json.lookup fields "functionName" = some (.str function) ∧
      ∀ positions,
        ¬ Listed (fun n : Nat => .int n) (Json.lookup fields "positionalArgumentsMutated") positions
  | .badKeywords function => ∃ fields, IsEntry v (.obj fields) ∧
      Json.lookup fields "functionName" = some (.str function) ∧
      ∀ keywords, ¬ Listed .str (Json.lookup fields "keywordArgumentsMutated") keywords
  | .notShown entry => IsEntry v entry ∧ IsNameless entry ∧ entry.HasLongInteger

/-- The error that shows a value tells that it cannot be shown just if it cannot. -/
theorem RuleError.showing_eq_notShown_iff {error : Json → String → RuleError} {value entry : Json}
    (herror : ∀ shown, error value shown ≠ .notShown entry) :
    RuleError.showing error value = .notShown entry ↔ value = entry ∧ value.HasLongInteger := by
  rw [← Json.literal?_eq_none_iff, RuleError.showing]
  cases value.literal? with
  | none => simp
  | some shown => simp [herror shown]

theorem RuleError.blames_showing {error : Json → String → RuleError} {v value : Json}
    (hentry : IsEntry v value) (hnameless : IsNameless value)
    (hshown : ∀ shown, value.literal? = some shown → (error value shown).Blames v) :
    (RuleError.showing error value).Blames v := by
  cases hliteral : value.literal? with
  | some shown =>
    rw [RuleError.showing, hliteral]
    exact hshown shown hliteral
  | none =>
    rw [RuleError.showing, hliteral]
    exact ⟨hentry, hnameless, (Json.literal?_eq_none_iff value).1 hliteral⟩

/-- What becomes of an object without a name. -/
theorem Rule.ofMembers_of_not_isNamed {fields : List (Text × Json)} (h : ¬ IsNamed fields) :
    Rule.ofMembers fields = .error (.showing .noFunctionName (.obj fields)) := by
  unfold Rule.ofMembers
  split
  · rename_i name hname
    refine if_pos ?_
    by_contra hnonempty
    exact h ⟨name, hname, by simpa using hnonempty⟩
  · rfl

/-- What becomes of any other object: its lists are looked at. -/
theorem Rule.ofMembers_of_isNamed {fields : List (Text × Json)} (h : IsNamed fields) {e : RuleError}
    (herror : Rule.ofMembers fields = .error e) : ∃ function,
      Json.lookup fields "functionName" = some (.str function) ∧
      ((e = .badPositions function ∧ ∀ positions,
          ¬ Listed (fun n : Nat => .int n) (Json.lookup fields "positionalArgumentsMutated") positions) ∨
        e = .badKeywords function ∧ ∀ keywords,
          ¬ Listed .str (Json.lookup fields "keywordArgumentsMutated") keywords) := by
  obtain ⟨function, hname, hnonempty⟩ := h
  refine ⟨function, hname, ?_⟩
  have hempty : function.isEmpty = false := by simpa using hnonempty
  simp only [Rule.ofMembers, hname, hempty, Bool.false_eq_true, if_false] at herror
  split at herror
  · rename_i hnone
    refine .inl ⟨(Except.error.inj herror).symm, fun positions hlisted => ?_⟩
    have := (Rule.itemsOf?_eq_some_iff Rule.positionOf?_eq_some_iff _ _).2 hlisted
    simp [hnone] at this
  · split at herror
    · rename_i hnone
      refine .inr ⟨(Except.error.inj herror).symm, fun keywords hlisted => ?_⟩
      have := (Rule.itemsOf?_eq_some_iff Rule.keywordOf?_eq_some_iff _ _).2 hlisted
      simp [hnone] at this
    · cases herror

theorem Rule.ofJson_of_ne_obj {entry : Json} (h : ∀ fields, entry ≠ .obj fields) :
    Rule.ofJson entry = .error (.showing .ruleNotObject entry) := by
  cases entry with
  | obj fields => exact absurd rfl (h fields)
  | _ => rfl

/-- An entry that is refused has what the error complains of. -/
theorem Rule.blames_of_ofJson {v entry : Json} (hentry : IsEntry v entry) {e : RuleError}
    (h : Rule.ofJson entry = .error e) : e.Blames v := by
  by_cases hobject : ∃ fields, entry = .obj fields
  · obtain ⟨fields, rfl⟩ := hobject
    by_cases hnamed : IsNamed fields
    · obtain ⟨function, hname, ⟨rfl, hps⟩ | ⟨rfl, hks⟩⟩ := Rule.ofMembers_of_isNamed hnamed h
      · exact ⟨fields, hentry, hname, hps⟩
      · exact ⟨fields, hentry, hname, hks⟩
    · rw [Rule.ofJson, Rule.ofMembers_of_not_isNamed hnamed] at h
      obtain rfl := Except.error.inj h
      refine RuleError.blames_showing hentry ?_ fun shown hshown => ⟨fields, rfl, hentry, hnamed, hshown⟩
      rintro _ ⟨⟩
      exact hnamed
  · have hother : ∀ fields, entry ≠ .obj fields := fun fields heq => hobject ⟨fields, heq⟩
    rw [Rule.ofJson_of_ne_obj hother] at h
    obtain rfl := Except.error.inj h
    exact RuleError.blames_showing hentry (fun fields heq => absurd heq (hother fields))
      fun shown hshown => ⟨hentry, hother, hshown⟩

/-- **An error complains of something that is so.** -/
theorem Rules.blames_of_ofJson {v : Json} {e : RuleError} (h : Rules.ofJson v = .error e) : e.Blames v := by
  cases v with
  | obj members =>
    simp only [Rules.ofJson] at h
    split at h
    · cases h
    · rename_i entries hentries
      cases hall : entries.mapM Rule.ofJson with
      | ok rules => simp [hall, Except.map] at h
      | error f =>
        obtain rfl : f = e := by simpa [hall, Except.map] using h
        obtain ⟨entry, hmem, herror⟩ := exists_of_mapM_eq_error hall
        exact Rule.blames_of_ofJson ⟨members, entries, rfl, hentries, hmem⟩ herror
    · rename_i value hnot hvalue
      obtain rfl := Except.error.inj h
      exact ⟨members, value, rfl, hvalue, fun entries heq => hnot entries heq⟩
  | _ =>
    obtain rfl := Except.error.inj h
    exact fun members hmembers => nomatch hmembers

/-! ## What cannot be shown -/

/-- The first entry that describes no rule is one that is shown whole, and an integer of too many digits
stands in it. -/
def Unshowable (v : Json) : Prop :=
  ∃ members before entry after, v = .obj members ∧
    Json.lookup members "functionConfigs" = some (.arr (before ++ entry :: after)) ∧
    (∀ b ∈ before, ∃ fields, b = .obj fields ∧ IsRule fields) ∧ IsNameless entry ∧ entry.HasLongInteger

theorem exists_rule_ofJson_iff {entry : Json} :
    (∃ r, Rule.ofJson entry = .ok r) ↔ ∃ fields, entry = .obj fields ∧ IsRule fields := by
  simp only [Rule.ofJson_eq_ok_iff]
  rw [exists_comm]
  exact exists_congr fun fields => by rw [exists_and_left, exists_reads_iff]

theorem Rule.ofJson_eq_notShown_iff {entry shown : Json} : Rule.ofJson entry = .error (.notShown shown) ↔
    entry = shown ∧ IsNameless entry ∧ entry.HasLongInteger := by
  by_cases hobject : ∃ fields, entry = .obj fields
  · obtain ⟨fields, rfl⟩ := hobject
    by_cases hnamed : IsNamed fields
    · constructor
      · intro h
        obtain ⟨_, _, ⟨h, -⟩ | ⟨h, -⟩⟩ := Rule.ofMembers_of_isNamed hnamed h <;> cases h
      · rintro ⟨-, hnameless, -⟩
        exact absurd hnamed (hnameless fields rfl)
    · have hnameless : IsNameless (.obj fields) := by
        rintro _ ⟨⟩
        exact hnamed
      rw [Rule.ofJson, Rule.ofMembers_of_not_isNamed hnamed, Except.error.injEq,
        RuleError.showing_eq_notShown_iff (fun _ h => by cases h), and_iff_right hnameless]
  · have hother : ∀ fields, entry ≠ .obj fields := fun fields heq => hobject ⟨fields, heq⟩
    have hnameless : IsNameless entry := fun fields heq => absurd heq (hother fields)
    rw [Rule.ofJson_of_ne_obj hother, Except.error.injEq,
      RuleError.showing_eq_notShown_iff (fun _ h => by cases h), and_iff_right hnameless]

/-- **No announced error is there just if an entry that would have to be shown cannot be.** -/
theorem Rules.ofJson_notShown_iff {v : Json} : (∃ entry, Rules.ofJson v = .error (.notShown entry)) ↔
    Unshowable v := by
  constructor
  · rintro ⟨shown, h⟩
    cases v with
    | obj members =>
      simp only [Rules.ofJson] at h
      split at h
      · cases h
      · rename_i entries hentries
        have hall : entries.mapM Rule.ofJson = .error (.notShown shown) := by
          cases hall : entries.mapM Rule.ofJson <;> simp_all [Except.map]
        obtain ⟨before, entry, after, rfl, hbefore, hentry⟩ := mapM_eq_error_iff.1 hall
        obtain ⟨-, hnameless, hlong⟩ := Rule.ofJson_eq_notShown_iff.1 hentry
        exact ⟨members, before, entry, after, rfl, hentries,
          fun b hb => exists_rule_ofJson_iff.1 (hbefore b hb), hnameless, hlong⟩
      · cases h
    | _ => cases h
  · rintro ⟨members, before, entry, after, rfl, hentries, hbefore, hnameless, hlong⟩
    have hall : (before ++ entry :: after).mapM Rule.ofJson = .error (.notShown entry) :=
      mapM_eq_error_iff.2 ⟨before, entry, after, rfl, fun b hb => exists_rule_ofJson_iff.2 (hbefore b hb),
        Rule.ofJson_eq_notShown_iff.2 ⟨rfl, hnameless, hlong⟩⟩
    exact ⟨entry, by simp only [Rules.ofJson, hentries, hall, Except.map]⟩

theorem RuleError.isAnnounced_eq_false_iff {e : RuleError} :
    e.isAnnounced = false ↔ ∃ entry, e = .notShown entry := by
  cases e <;> simp [RuleError.isAnnounced]

/-! ## Reading and writing -/

/-- **Rules are checked exactly, and are read back as they were written.** A value is read
as rules just when it describes rules, and then as those that it says. Any other value is
refused, with an error about something that is so; and the error is an announced one, but for a value
whose first entry that describes no rule would have to be shown and cannot be. Rules that were read are
written as a value from which the same rules are read, with everything in the same order, and which is
written from these again. -/
theorem Rules.ofJson_exact (v : Json) :
    ((∃ rules, Rules.ofJson v = .ok rules) ↔ IsRules v) ∧
    (∀ rules, Rules.ofJson v = .ok rules ↔ rules.Reads v) ∧
    (¬ IsRules v ∧ ¬ Unshowable v ↔ ∃ e, Rules.ofJson v = .error e ∧ e.isAnnounced = true ∧ e.Blames v) ∧
    (Unshowable v ↔ ∃ e, Rules.ofJson v = .error e ∧ e.isAnnounced = false ∧ e.Blames v) ∧
    ∀ rules, Rules.ofJson v = .ok rules → Rules.ofJson rules.toJson = .ok rules ∧
      (Rules.ofJson rules.toJson).map Rules.toJson = .ok rules.toJson := by
  have haccepted : (∃ rules, Rules.ofJson v = .ok rules) ↔ IsRules v := by
    simp only [Rules.ofJson_eq_ok_iff, Rules.exists_reads_iff]
  have hunannounced : Unshowable v ↔ ∃ e, Rules.ofJson v = .error e ∧ e.isAnnounced = false := by
    simp [← Rules.ofJson_notShown_iff, RuleError.isAnnounced_eq_false_iff]
  refine ⟨haccepted, fun _ => Rules.ofJson_eq_ok_iff, ?_, ?_, fun rules hrules => ?_⟩
  · rw [← haccepted, hunannounced]
    cases hread : Rules.ofJson v with
    | ok rules => simp
    | error e => simpa using fun _ => Rules.blames_of_ofJson hread
  · rw [hunannounced]
    exact exists_congr fun e => ⟨fun h => ⟨h.1, h.2, Rules.blames_of_ofJson h.1⟩, fun h => ⟨h.1, h.2.1⟩⟩
  · have hagain : Rules.ofJson rules.toJson = .ok rules :=
      Rules.ofJson_eq_ok_iff.2 (Rules.reads_toJson (Rules.ofJson_eq_ok_iff.1 hrules).named)
    exact ⟨hagain, by rw [hagain]; rfl⟩

/-- Rules with a receiver, positions and keywords, in an object with another member. -/
def Json.assortedRules : Json :=
  .obj [Json.entry "version" .null, Json.entry "functionConfigs" (.arr [
    .obj [Json.entry "functionName" (.str "append"), Json.entry "mutatesInstance" (.int 1)],
    .obj [Json.entry "functionName" (.str "copy"),
      Json.entry "positionalArgumentsMutated" (.arr [.int 2, .int 0, .int 2]),
      Json.entry "keywordArgumentsMutated" (.arr [.str "out"]), Json.entry "mutatesInstance" (.arr [])]])]

/-- The last part of `Rules.ofJson_exact` has something to say of them. -/
theorem Rules.assorted_ofJson_exact :
    let rules : Rules := ⟨[⟨"append", true, [], []⟩, ⟨"copy", false, [2, 0, 2], ["out"]⟩]⟩
    IsRules Json.assortedRules ∧ Rules.ofJson Json.assortedRules = .ok rules ∧
      Rules.ofJson rules.toJson = .ok rules := by
  have hread : Rules.ofJson Json.assortedRules =
      .ok ⟨[⟨"append", true, [], []⟩, ⟨"copy", false, [2, 0, 2], ["out"]⟩]⟩ := rfl
  obtain ⟨haccepted, -, -, -, hagain⟩ := Rules.ofJson_exact Json.assortedRules
  exact ⟨haccepted.1 ⟨_, hread⟩, hread, (hagain _ hread).1⟩

/-- An object whose only entry is an integer. -/
def Json.integerEntry (n : Int) : Json := .obj [Json.entry "functionConfigs" (.arr [.int n])]

theorem Rules.unshowable_integerEntry {n : Int} (h : ¬ Text.IsShort n) : Unshowable (Json.integerEntry n) :=
  ⟨_, [], _, [], rfl, rfl, by simp, fun _ heq => (by cases heq), .int h⟩

/-- An entry that is an integer of too many digits is refused, but not with an announced error. -/
theorem Rules.longEntry_not_announced :
    let v := Json.integerEntry (Nat.pow 10 Text.maxDigits)
    ¬ IsRules v ∧ (∃ e, Rules.ofJson v = .error e ∧ e.isAnnounced = false) ∧
      ¬ ((∃ rules, Rules.ofJson v = .ok rules) ∨ ∃ e, Rules.ofJson v = .error e ∧ e.isAnnounced = true) := by
  intro v
  have hlong : ¬ Text.IsShort (Nat.pow 10 Text.maxDigits) := by decide +kernel
  obtain ⟨entry, he⟩ := Rules.ofJson_notShown_iff.2 (Rules.unshowable_integerEntry hlong)
  have hnone : ¬ ∃ rules, Rules.ofJson v = .ok rules := by
    rintro ⟨rules, hrules⟩
    rw [he] at hrules
    cases hrules
  refine ⟨?_, ⟨_, he, rfl⟩, ?_⟩
  · rwa [← Rules.exists_reads_iff, ← exists_congr fun _ => Rules.ofJson_eq_ok_iff]
  · rintro (h | ⟨f, hf, hannounced⟩)
    · exact hnone h
    · rw [he] at hf
      obtain rfl := Except.error.inj hf
      cases hannounced

end Reaching
