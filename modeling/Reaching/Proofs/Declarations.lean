/-
Which names the literals of a statement declare.

What the steps of the search and the reading let through is said here without steps. The list
of a literal starts behind the first opening that has a quote behind it on its line, and goes
up to the last quote of that line (`Declaration.HasPayload`). With its escaped quotes replaced
(`Declaration.Unescaped`) it is an array of objects that say what they declare
(`Declaration.Declared.Reads`). A literal of this form declares what the objects say, all of it,
and any other literal declares nothing (`Declaration.ofLiteral_exact`).

Texts and objects can be taken apart like arrays, so a step may go on with a value of the wrong
type. But their parts are texts again, and the numbers that are asked for in the end are not.
-/
import Mathlib.Data.List.Infix
import Mathlib.Data.List.TakeWhile
import Reaching.Proofs.Failures
import Reaching.Proofs.Mutations

namespace Reaching

open Code

namespace Declaration

/-! ## The place of a list -/

/-- A text up to the end of its line. -/
def restOfLine (text : Text) : Text := text.takeWhile (· ≠ .char '\n')

/-- At a place of a text there is an opening with a quote behind it on its line. -/
def OpensAt (text : Text) (n : Nat) : Prop :=
  opening <+: text.drop n ∧ .char '"' ∈ restOfLine (text.drop (n + opening.length))

/-- What stands behind the first opening of that kind, up to the last quote of its line. -/
def HasPayload (text payload : Text) : Prop :=
  ∃ n, OpensAt text n ∧ (∀ m < n, ¬ OpensAt text m) ∧
    ∃ tail, restOfLine (text.drop (n + opening.length)) = payload ++ .char '"' :: tail ∧ .char '"' ∉ tail

variable {text payload : Text}

theorem beforeLastQuote?_eq_some_iff {line : Text} :
    beforeLastQuote? line = some payload ↔ ∃ tail, line = payload ++ .char '"' :: tail ∧ .char '"' ∉ tail := by
  constructor
  · intro h
    unfold beforeLastQuote? at h
    split at h
    case h_1 => cases h
    case h_2 c before hdrop =>
      obtain rfl := Option.some.inj h
      have hc : c = .char '"' := by
        have := List.head?_dropWhile_not (fun c => decide (c ≠ .char '"')) line.reverse
        simpa only [hdrop, List.head?_cons, decide_eq_false_iff_not, not_not] using this
      have hsplit := List.takeWhile_append_dropWhile (p := fun c => decide (c ≠ .char '"')) (l := line.reverse)
      rw [hdrop, hc] at hsplit
      refine ⟨(line.reverse.takeWhile fun c => decide (c ≠ .char '"')).reverse, ?_, fun hmem => ?_⟩
      · simpa using congrArg List.reverse hsplit.symm
      · simpa using List.mem_takeWhile_imp (List.mem_reverse.1 hmem)
  · rintro ⟨tail, rfl, htail⟩
    have hpass : ∀ c ∈ tail.reverse, decide (c ≠ .char '"') = true := fun c hc =>
      decide_eq_true (ne_of_mem_of_not_mem (List.mem_reverse.1 hc) htail)
    have hreverse : (payload ++ .char '"' :: tail).reverse = tail.reverse ++ .char '"' :: payload.reverse := by simp
    rw [beforeLastQuote?, hreverse, List.dropWhile_append_of_pos hpass,
      List.dropWhile_cons_of_neg (by simp)]
    exact congrArg some payload.reverse_reverse

theorem beforeLastQuote?_eq_none_iff {line : Text} : beforeLastQuote? line = none ↔ .char '"' ∉ line := by
  have hdrop : line.reverse.dropWhile (fun c => decide (c ≠ .char '"')) = [] ↔ .char '"' ∉ line := by
    rw [List.dropWhile_eq_nil_iff]
    simp only [List.mem_reverse, decide_eq_true_eq]
    exact ⟨fun h hmem => h _ hmem rfl, fun h c hc => ne_of_mem_of_not_mem hc h⟩
  rw [← hdrop, beforeLastQuote?]
  cases line.reverse.dropWhile fun c => decide (c ≠ .char '"') with
  | nil => exact iff_of_true rfl rfl
  | cons c before => exact iff_of_false (by simp) (by simp)

theorem opensAt_succ {c : CodePoint} {n : Nat} : OpensAt (c :: text) (n + 1) ↔ OpensAt text n := by
  simp [OpensAt, Nat.add_right_comm n 1]

theorem not_opensAt_nil {n : Nat} : ¬ OpensAt [] n := by
  rintro ⟨-, hquote⟩
  rw [List.drop_nil] at hquote
  cases hquote

/-- The search looks at the places of a text one by one. -/
theorem payload?_cons_of_opensAt {c : CodePoint} (h : OpensAt (c :: text) 0) :
    payload? (c :: text) = beforeLastQuote? (restOfLine ((c :: text).drop (0 + opening.length))) := by
  obtain ⟨hopening, hquote⟩ := h
  rw [List.drop_zero] at hopening
  rw [Nat.zero_add] at hquote ⊢
  rw [payload?, if_pos (List.isPrefixOf_iff_prefix.2 hopening)]
  cases hfound : beforeLastQuote? (((c :: text).drop opening.length).takeWhile (· ≠ .char '\n')) with
  | none => exact absurd hquote (beforeLastQuote?_eq_none_iff.1 hfound)
  | some found => exact hfound.symm

theorem payload?_cons_of_not_opensAt {c : CodePoint} (h : ¬ OpensAt (c :: text) 0) :
    payload? (c :: text) = payload? text := by
  rw [payload?]
  split
  case isFalse => rfl
  case isTrue hopening =>
    have hquote : .char '"' ∉ ((c :: text).drop opening.length).takeWhile (· ≠ .char '\n') := fun hmem =>
      h ⟨List.isPrefixOf_iff_prefix.1 hopening, by rwa [Nat.zero_add]⟩
    rw [beforeLastQuote?_eq_none_iff.2 hquote]

/-- **The search finds the list of a text**, and nothing else. -/
theorem payload?_eq_some_iff : payload? text = some payload ↔ HasPayload text payload := by
  induction text with
  | nil => simp [payload?, HasPayload, not_opensAt_nil]
  | cons c rest ih =>
    by_cases h : OpensAt (c :: rest) 0
    · rw [payload?_cons_of_opensAt h, beforeLastQuote?_eq_some_iff]
      refine ⟨fun hlist => ⟨0, h, by simp, hlist⟩, ?_⟩
      rintro ⟨n, -, hfirst, hlist⟩
      obtain rfl : n = 0 := Nat.eq_zero_of_not_pos fun hpos => hfirst 0 hpos h
      exact hlist
    · rw [payload?_cons_of_not_opensAt h, ih]
      constructor
      · rintro ⟨n, hopens, hfirst, hlist⟩
        refine ⟨n + 1, opensAt_succ.2 hopens, fun m hm => ?_, by simpa [Nat.add_right_comm n 1] using hlist⟩
        cases m with
        | zero => exact h
        | succ m => exact fun hm' => hfirst m (by omega) (opensAt_succ.1 hm')
      · rintro ⟨_ | n, hopens, hfirst, hlist⟩
        · exact absurd hopens h
        · refine ⟨n, opensAt_succ.1 hopens, fun m hm hm' => ?_, by simpa [Nat.add_right_comm n 1] using hlist⟩
          exact hfirst (m + 1) (by omega) (opensAt_succ.2 hm')

/-- The first opening has no quote behind it on its line. -/
example : payload? "\"defs: a\n\"defs: b\" c\" d" = some (Text.ofString "b\" c") := by decide +kernel

/-! ## Escaped quotes -/

/-- An escaped quote: a quote with a backslash in front of it. -/
def escapedQuote : Text := [.char '\\', .char '"']

/-- A text with plain quotes for its escaped ones: up to the first of them it is kept. -/
inductive Unescaped : Text → Text → Prop
  | plain {piece : Text} : ¬ escapedQuote <:+: piece → Unescaped piece piece
  | escaped {piece text result : Text} : ¬ escapedQuote <:+: piece → Unescaped text result →
      Unescaped (piece ++ escapedQuote ++ text) (piece ++ .char '"' :: result)

variable {c : CodePoint} {piece result : Text}

theorem unescapeQuotes_cons (h : ¬ escapedQuote <+: c :: text) :
    unescapeQuotes (c :: text) = c :: unescapeQuotes text := by
  rw [unescapeQuotes]
  rintro rest rfl rfl
  exact h ⟨rest, rfl⟩

/-- A piece in front of an escaped quote is kept. -/
theorem unescapeQuotes_append (h : ¬ escapedQuote <:+: piece) :
    unescapeQuotes (piece ++ escapedQuote ++ text) = piece ++ .char '"' :: unescapeQuotes text := by
  induction piece with
  | nil => rfl
  | cons c rest ih =>
    rw [List.infix_cons_iff, not_or] at h
    rw [List.cons_append, List.cons_append, unescapeQuotes_cons, ih h.2, List.cons_append]
    -- an escaped quote at the front would stand in the piece, since no quote begins one
    intro hbegins
    cases rest with
    | nil => simp [escapedQuote] at hbegins
    | cons d rest => exact h.1 (by simpa [escapedQuote] using hbegins)

/-- A text without escaped quotes is kept. -/
theorem unescapeQuotes_eq_self (h : ¬ escapedQuote <:+: piece) : unescapeQuotes piece = piece := by
  induction piece with
  | nil => rfl
  | cons c rest ih =>
    rw [List.infix_cons_iff, not_or] at h
    rw [unescapeQuotes_cons h.1, ih h.2]

theorem Unescaped.cons (h : ¬ escapedQuote <+: c :: text) (hrest : Unescaped text result) :
    Unescaped (c :: text) (c :: result) := by
  cases hrest with
  | plain hpiece => exact .plain (by simp [List.infix_cons_iff, h, hpiece])
  | @escaped piece text result hpiece hrest =>
    have hpiece' : ¬ escapedQuote <:+: c :: piece := by
      rw [List.infix_cons_iff, not_or]
      exact ⟨fun hbegins => h (hbegins.trans (by simp)), hpiece⟩
    exact .escaped hpiece' hrest

/-- **Escaped quotes are replaced one after the other.** -/
theorem unescapeQuotes_eq_iff : unescapeQuotes text = result ↔ Unescaped text result := by
  constructor
  · rintro rfl
    fun_induction unescapeQuotes text with
    | case1 rest ih => exact @Unescaped.escaped [] rest _ (by simp [escapedQuote]) ih
    | case2 c rest hne ih =>
      refine .cons ?_ ih
      rintro ⟨tail, htail⟩
      cases htail
      exact hne tail rfl rfl
    | case3 => exact .plain (by simp [escapedQuote])
  · intro h
    induction h with
    | plain hpiece => exact unescapeQuotes_eq_self hpiece
    | escaped hpiece _ ih => rw [unescapeQuotes_append hpiece, ih]

/-! ## Records -/

/-- A value stands for an integer: it is one, or it is a truth value. -/
inductive Stands : Json → Int → Bool → Prop
  | int (n : Int) : Stands (.int n) n false
  | truth (b : Bool) : Stands (.bool b) (if b then 1 else 0) true

/-- A value is a position: two pairs of integers, a line and a column each. -/
def IsPosition (v : Json) (span : Span) (truths : TruthColumns) : Prop :=
  ∃ startLine startColumn endLine endColumn : Json,
    v = .arr [.arr [startLine, startColumn], .arr [endLine, endColumn]] ∧
      (∃ truth, Stands startLine span.firstLine truth) ∧ Stands startColumn span.firstColumn truths.first ∧
      (∃ truth, Stands endLine span.lastLine truth) ∧ Stands endColumn span.lastColumn truths.last

/-- What an object says that is declared: a text for its name, and its position. Members with
other keys do not matter. -/
def Declared.Reads (d : Declared) (item : Json) : Prop :=
  ∃ members place, item = .obj members ∧ Json.lookup members "name" = some (.str d.name) ∧
    Json.lookup members "pos" = some place ∧ IsPosition place d.span d.truths

variable {v w : Json}

theorem member_eq_ok_iff {key : Text} :
    member key v = .ok w ↔ ∃ members, v = .obj members ∧ Json.lookup members key = some w := by
  cases v with
  | obj members => cases h : Json.lookup members key <;> simp [member, h]
  | _ => simp [member]

theorem textOf_eq_ok_iff {t : Text} : textOf v = .ok t ↔ v = .str t := by
  cases v <;> simp [textOf]

theorem numberOf?_eq_some_iff {n : Int} {truth : Bool} :
    numberOf? v = some (n, truth) ↔ Stands v n truth := by
  constructor
  · intro h
    cases v with
    | int m =>
      cases h
      exact .int n
    | bool b =>
      cases h
      exact .truth b
    | _ => cases h
  · rintro (_ | _) <;> rfl

theorem pair_eq_ok_iff {a b : Json} : pair v = .ok (a, b) ↔ parts? v = some [a, b] := by
  unfold pair
  split <;> simp_all

/-- Only arrays have parts that are no texts. -/
theorem eq_arr_of_parts? {parts : List Json} {part : Json} (h : parts? v = some parts) (hpart : part ∈ parts)
    (hno : ∀ t, part ≠ .str t) : v = .arr parts := by
  cases v with
  | arr items => exact congrArg Json.arr (Option.some.inj h)
  | str t =>
    obtain rfl := Option.some.inj h
    obtain ⟨c, -, rfl⟩ := List.mem_map.1 hpart
    exact absurd rfl (hno _)
  | obj members =>
    obtain rfl := Option.some.inj h
    obtain ⟨m, -, rfl⟩ := List.mem_map.1 hpart
    exact absurd rfl (hno _)
  | _ => cases h

theorem Stands.ne_str {n : Int} {truth : Bool} (h : Stands v n truth) (t : Text) : v ≠ .str t := by
  rintro rfl
  cases h

/-- A pair of values of which one stands for an integer is an array. -/
theorem pair_eq_arr {a b : Json} {n : Int} {truth : Bool} (h : pair v = .ok (a, b)) (ha : Stands a n truth) :
    v = .arr [a, b] :=
  eq_arr_of_parts? (pair_eq_ok_iff.1 h) (List.mem_cons_self ..) ha.ne_str

/-- **A position is two pairs of integers**, and nothing else. -/
theorem position_eq_ok_iff {span : Span} {truths : TruthColumns} :
    position v = .ok (span, truths) ↔ IsPosition v span truths := by
  constructor
  · intro h
    simp only [position, except_bind_eq_ok_iff, Prod.exists] at h
    obtain ⟨first, last, hv, startLine, startColumn, hfirst, endLine, endColumn, hlast, h⟩ := h
    split at h
    case h_2 => cases h
    case h_1 l t c startTruth l' t' c' endTruth hl hc hl' hc' =>
      simp only [numberOf?_eq_some_iff] at hl hc hl' hc'
      cases h
      obtain rfl := pair_eq_arr hfirst hl
      obtain rfl := pair_eq_arr hlast hl'
      obtain rfl := eq_arr_of_parts? (pair_eq_ok_iff.1 hv) (List.mem_cons_self ..) (by simp)
      exact ⟨startLine, startColumn, endLine, endColumn, rfl, ⟨t, hl⟩, hc, ⟨t', hl'⟩, hc'⟩
  · rintro ⟨startLine, startColumn, endLine, endColumn, rfl, ⟨t, hl⟩, hc, ⟨t', hl'⟩, hc'⟩
    rw [← numberOf?_eq_some_iff] at hl hc hl' hc'
    simp [position, pair, parts?, bind, Except.bind, hl, hc, hl', hc']

/-- **What is declared is read off an object that says it**, and nothing else. -/
theorem declared_eq_ok_iff {d : Declared} : declared v = .ok d ↔ d.Reads v := by
  obtain ⟨name, span, truths⟩ := d
  simp only [declared, except_bind_eq_ok_iff, member_eq_ok_iff, textOf_eq_ok_iff, position_eq_ok_iff,
    Prod.exists]
  constructor
  · rintro ⟨_, ⟨members, rfl, hname⟩, n, rfl, place, ⟨members', heq, hpos⟩, span', truths', hplace, h⟩
    cases heq
    cases h
    exact ⟨members, place, rfl, hname, hpos, hplace⟩
  · rintro ⟨members, place, rfl, hname, hpos, hplace⟩
    exact ⟨_, ⟨members, rfl, hname⟩, name, rfl, place, ⟨members, rfl, hpos⟩, span, truths, hplace, rfl⟩

/-! ## Literals -/

/-- A text declares some names: with its escaped quotes replaced, its list is an array of
objects that say what they are. -/
def Declares (text : Text) (list : List Declared) : Prop :=
  ∃ payload json items, HasPayload text payload ∧ Unescaped payload json ∧
    Json.ofText json = .ok (.arr items) ∧
    List.Forall₂ (fun item d => Declared.Reads d item) items list

theorem declarations_eq_ok_iff {list : List Declared} :
    declarations payload = .ok list ↔ ∃ json items, Unescaped payload json ∧
      Json.ofText json = .ok (.arr items) ∧
      List.Forall₂ (fun item d => Declared.Reads d item) items list := by
  simp only [← unescapeQuotes_eq_iff, exists_and_left, exists_eq_left', ← declared_eq_ok_iff,
    ← mapM_eq_ok_iff]
  unfold declarations
  split
  case h_1 e h => simp [h]
  case h_2 items h => simp [h]
  case h_3 v hne h =>
    simp only [h, reduceCtorEq, Except.ok.injEq, false_iff, not_exists, not_and]
    exact fun items heq => absurd heq (hne items)

/-- **What a text declares is what is read from it.** -/
theorem read_eq_declares_iff {t : Text} {list : List Declared} :
    read t = .declares list ↔ Declares t list := by
  have hsteps : Declares t list ↔
      ∃ payload, payload? t = some payload ∧ declarations payload = .ok list := by
    simp only [Declares, payload?_eq_some_iff, declarations_eq_ok_iff, exists_and_left]
  rw [hsteps, read]
  cases payload? t with
  | none => simp
  | some payload => cases h : declarations payload <;> simp [h]

/-- **A literal makes the definitions of all that it declares**, and none if it declares nothing. -/
theorem ofLiteral_exact (t : Text) (line : Int) (owner : Stmt) :
    (∀ list, Declares t list →
      (ofLiteral t line owner).1 = list.map fun d => d.definition line owner) ∧
    ((∀ list, ¬ Declares t list) → (ofLiteral t line owner).1 = []) := by
  constructor
  · intro list h
    simp only [ofLiteral, read_eq_declares_iff.2 h]
  · intro hno
    unfold ofLiteral
    split
    · rfl
    · rfl
    · rename_i list h
      exact absurd (read_eq_declares_iff.1 h) (hno list)

/-! ## No failure gets out -/

/-- The failures that make a literal one that declares nothing. -/
def handled : List Failure := [.value, .type, .key, .index]

theorem member_handled {key : Text} {f : Failure} (h : member key v = .error f) : f ∈ handled := by
  unfold member at h
  split at h
  · split at h <;> cases h
    decide
  · cases h
    decide

theorem textOf_handled {f : Failure} (h : textOf v = .error f) : f ∈ handled := by
  unfold textOf at h
  split at h <;> cases h
  decide

theorem pair_handled {f : Failure} (h : pair v = .error f) : f ∈ handled := by
  unfold pair at h
  split at h <;> cases h <;> decide

theorem position_handled {f : Failure} (h : position v = .error f) : f ∈ handled := by
  simp only [position, except_bind_eq_error_iff] at h
  rcases h with h | ⟨⟨first, last⟩, -, h | ⟨⟨startLine, startColumn⟩, -, h | ⟨⟨endLine, endColumn⟩, -, h⟩⟩⟩
  · exact pair_handled h
  · exact pair_handled h
  · exact pair_handled h
  · split at h <;> cases h
    decide

theorem declared_handled {f : Failure} (h : declared v = .error f) : f ∈ handled := by
  simp only [declared, except_bind_eq_error_iff] at h
  rcases h with h | ⟨_, -, h | ⟨_, -, h | ⟨_, -, h | ⟨⟨_, _⟩, -, h⟩⟩⟩⟩
  · exact member_handled h
  · exact textOf_handled h
  · exact member_handled h
  · exact position_handled h
  · cases h

/-- **Reading a list of definitions fails in handled ways only**, whatever the list is. -/
theorem declarations_handled {f : Failure} (h : declarations payload = .error f) : f ∈ handled := by
  unfold declarations at h
  split at h
  case h_1 =>
    cases h
    decide
  case h_2 items _ =>
    obtain ⟨item, -, hitem⟩ := exists_of_mapM_eq_error h
    exact declared_handled hitem
  case h_3 =>
    cases h
    decide

/-- The definitions that one literal makes, and the lines of a literal that was discarded.
A failure that is not handled gets out. -/
def attempt (t : Text) (line : Int) (owner : Stmt) : Except Failure (List Definition × List Int) :=
  match payload? t with
  | none => .ok ([], [])
  | some payload =>
    match declarations payload with
    | .ok list => .ok (list.map fun d => d.definition line owner, [])
    | .error f => if f ∈ handled then .ok ([], [line]) else .error f

/-- No failure gets out of a literal. -/
theorem attempt_eq (t : Text) (line : Int) (owner : Stmt) :
    attempt t line owner = .ok (ofLiteral t line owner) := by
  unfold attempt ofLiteral read
  cases payload? t with
  | none => rfl
  | some payload =>
    cases h : declarations payload with
    | ok list => simp [h]
    | error f => simp [h, declarations_handled h]

end Declaration

/-! ## Statements -/

/-- The definitions that the declarations in a statement make, and the lines of the literals
that were discarded. A failure that is not handled gets out. -/
def Code.Stmt.tryDeclared (s : Stmt) : Except Declaration.Failure (Definitions × List Int) := do
  let found ← s.literals.mapM fun (text, span) => Declaration.attempt text span.firstLine s
  .ok (.ofList (found.flatMap (·.1)), found.flatMap (·.2))

theorem Code.Stmt.tryDeclared_eq (s : Stmt) : s.tryDeclared = .ok (declaredDefinitions s) := by
  have hfound : (s.literals.mapM fun (text, span) => Declaration.attempt text span.firstLine s) =
      .ok (s.literals.map fun (text, span) => Declaration.ofLiteral text span.firstLine s) := by
    rw [mapM_eq_ok_iff, List.forall₂_map_right_iff, List.forall₂_same]
    exact fun _ _ => Declaration.attempt_eq ..
  rw [tryDeclared, hfound]
  rfl

theorem Code.Node.literal?_eq_some_iff {n : Node} {text : Text} {span : Span} :
    n.literal? = some (text, span) ↔ ∃ marked, n = .expr (.at span (.constant (.text text marked))) := by
  unfold Node.literal?
  split
  · simp [and_comm]
  · rename_i hnode
    simp only [reduceCtorEq, false_iff]
    rintro ⟨marked, rfl⟩
    exact hnode _ _ _ rfl

/-- The literals of a statement are those under it. -/
theorem Code.Stmt.mem_literals_iff {s : Stmt} {text : Text} {span : Span} :
    (text, span) ∈ s.literals ↔
      ∃ marked, (Node.stmt s).Under (.expr (.at span (.constant (.text text marked)))) := by
  simp only [literals, List.mem_filterMap, Node.mem_breadthFirst_iff, Node.literal?_eq_some_iff]
  constructor
  · rintro ⟨n, hn, marked, rfl⟩
    exact ⟨marked, hn⟩
  · rintro ⟨marked, hn⟩
    exact ⟨_, hn, marked, rfl⟩

/-- A literal under a statement declares a definition. -/
def Code.Stmt.Declares (s : Stmt) (d : Definition) : Prop :=
  ∃ text marked span, (Node.stmt s).Under (.expr (.at span (.constant (.text text marked)))) ∧
    ∃ list, Declaration.Declares text list ∧ ∃ e ∈ list, d = e.definition span.firstLine s

/-- The definitions that literals make, one by one, are those that they declare. -/
theorem Code.Stmt.declares_iff {s : Stmt} {d : Definition} :
    s.Declares d ↔ ∃ l ∈ s.literals, d ∈ (Declaration.ofLiteral l.1 l.2.firstLine s).1 := by
  simp only [Prod.exists, mem_literals_iff]
  constructor
  · rintro ⟨text, marked, span, hunder, list, hlist, e, he, rfl⟩
    refine ⟨text, span, ⟨marked, hunder⟩, ?_⟩
    rw [(Declaration.ofLiteral_exact text span.firstLine s).1 list hlist]
    exact List.mem_map_of_mem he
  · rintro ⟨text, span, ⟨marked, hunder⟩, hd⟩
    obtain ⟨hall, hnone⟩ := Declaration.ofLiteral_exact text span.firstLine s
    by_cases h : ∃ list, Declaration.Declares text list
    · obtain ⟨list, hlist⟩ := h
      rw [hall list hlist] at hd
      obtain ⟨e, he, rfl⟩ := List.mem_map.1 hd
      exact ⟨text, marked, span, hunder, list, hlist, e, he, rfl⟩
    · rw [hnone (not_exists.1 h)] at hd
      cases hd

/-- **The literals of a statement make the definitions that they declare.** No failure gets out;
there is one definition for each name and span that a literal declares, and no other. -/
theorem declaredDefinitions_exact (s : Stmt) :
    s.tryDeclared = .ok (declaredDefinitions s) ∧
      (declaredDefinitions s).1.identities.Nodup ∧
      (∀ d ∈ (declaredDefinitions s).1, s.Declares d) ∧
      ∀ d, s.Declares d → d.identity ∈ (declaredDefinitions s).1.identities := by
  have hmade : ∀ d, s.Declares d ↔ d ∈ (s.literals.map fun (text, span) =>
      Declaration.ofLiteral text span.firstLine s).flatMap (·.1) := by
    intro d
    simp only [Stmt.declares_iff, List.mem_flatMap, List.mem_map, exists_exists_and_eq_and]
  refine ⟨s.tryDeclared_eq, Definitions.nodup_identities_union .nil, fun d hd => ?_, fun d hd => ?_⟩
  · exact (hmade d).2 ((Definitions.mem_of_mem_union hd).resolve_left List.not_mem_nil)
  · exact Definitions.mem_identities_union.2 (.inr (List.mem_map_of_mem ((hmade d).1 hd)))

end Reaching
