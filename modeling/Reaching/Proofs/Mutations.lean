/-
Which names the calls of a statement change, and which of these the statement reads.

The walk decides at a name by the marks of the calls it has met, so the order of the walk
matters to it. What is changed does not need an order (`Code.Stmt.Mutates`): a call somewhere
in the statement, a rule for its name, a part of the call that the rule says is changed, and a
name in this part. The two agree (`mutationDefinitions_exact`). A way down leads to one node and
each mark is a way from its call to a changed part (`Rule.exists_mark_iff`), so it is above the
names in the part and only these; and the walk is in pre-order (`visitsFrom_ordered`), so no node is
met before one above it and no call comes after a name that it changes.

What is changed is read too, since every statement reads the names in it, with one exception: an
assignment reads nothing of its targets, and a call may stand in the index of one
(`mutated_read_iff`).
-/
import Mathlib.Data.List.Lex
import Reaching.Proofs.RelevantRules
import Reaching.Proofs.Respan

namespace Reaching

open Code Relation

/-! ## The order of ways down -/

/-- Of two ways down the first one comes earlier in pre-order: read from the root, it ends where the
other one goes on, or it takes the earlier child where they part. -/
def Earlier (p q : List Nat) : Prop := List.Lex (· < ·) p.reverse q.reverse

namespace Earlier

variable {p q r : List Nat} {i j : Nat}

/-- A node comes before what is below it. -/
theorem below : Earlier p (q ++ i :: p) := by
  have hlex : List.Lex (· < ·) [] (i :: q.reverse) := .nil
  simpa [Earlier] using hlex.append_left _ p.reverse

/-- What is below a child comes before what is below a later one. -/
theorem beside (h : i < j) : Earlier (q ++ i :: p) (r ++ j :: p) := by
  have hlex : List.Lex (· < ·) (i :: q.reverse) (j :: r.reverse) := .rel h
  simpa [Earlier] using hlex.append_left _ p.reverse

theorem asymm (h : Earlier p q) : ¬ Earlier q p := Std.Asymm.asymm (r := List.Lex (· < ·)) _ _ h

theorem not_suffix (h : Earlier p q) : ¬ q <:+ p := by
  rintro ⟨r, rfl⟩
  cases r using List.reverseRecOn with
  | nil => exact h.asymm h
  | append_singleton r i => exact h.asymm (by simpa using below (p := q) (q := r) (i := i))

end Earlier

/-! ## Ways down -/

namespace Code.Node

variable {n m : Node} {p q : List Nat}

/-- A node is another one or below it. -/
def Under (n m : Node) : Prop := ReflTransGen (fun a c => c ∈ a.children) n m

/-- The node to which a way leads down. The last step stands first. -/
def down? (n : Node) : List Nat → Option Node
  | [] => some n
  | i :: p => (n.down? p).bind fun m => m.children[i]?

theorem down?_append : n.down? (q ++ p) = (n.down? p).bind fun m => m.down? q := by
  induction q with
  | nil => simp [down?]
  | cons i q ih => simp [down?, ih, Option.bind_assoc]

/-- **What is under a node is what a way leads down to.** -/
theorem under_iff_down? : n.Under m ↔ ∃ p, n.down? p = some m := by
  constructor
  · intro h
    induction h with
    | refl => exact ⟨[], rfl⟩
    | tail _ hc ih =>
      obtain ⟨p, hp⟩ := ih
      obtain ⟨i, hi⟩ := List.getElem?_of_mem hc
      exact ⟨i :: p, by rw [down?, hp]; exact hi⟩
  · rintro ⟨p, hp⟩
    induction p generalizing m with
    | nil =>
      obtain rfl := Option.some.inj hp
      exact .refl
    | cons i p ih =>
      obtain ⟨a, ha, hi⟩ := Option.bind_eq_some_iff.1 hp
      exact .tail (ih ha) (List.mem_of_getElem? hi)

/-! ## The walk -/

/-- A walk meets a node under its root by the way that leads down to it. -/
theorem exists_of_mem_visitsFrom {n : Node} {above : List Node} {p : List Nat} {v : Visit}
    (h : v ∈ n.visitsFrom above p) :
    ∃ q, v.path = q ++ p ∧ n.down? q = some v.node := by
  rw [visitsFrom_eq, List.mem_cons, List.mem_flatMap] at h
  rcases h with rfl | ⟨⟨c, i⟩, hc, hv⟩
  · exact ⟨[], rfl, rfl⟩
  · rw [List.mem_zipIdx_iff_getElem?] at hc
    have hchild : c ∈ n.children := List.mem_of_getElem? hc
    obtain ⟨q, hpath, hq⟩ := exists_of_mem_visitsFrom hv
    refine ⟨q ++ [i], by simp [hpath], ?_⟩
    rw [down?_append, down?, down?, Option.bind_some, hc]
    exact hq
termination_by sizeOf n
decreasing_by exact sizeOf_lt_of_mem_children hchild

theorem down?_of_mem_visits {v : Visit} (h : v ∈ n.visits) : n.down? v.path = some v.node := by
  obtain ⟨q, hpath, hq⟩ := exists_of_mem_visitsFrom h
  rwa [hpath, List.append_nil]

/-- A walk leaves out nothing. -/
theorem exists_mem_visitsFrom (above : List Node) (p : List Nat) (h : n.down? q = some m) :
    ∃ v ∈ n.visitsFrom above p, v.path = q ++ p ∧ v.node = m := by
  induction q using List.reverseRecOn generalizing n p above with
  | nil =>
    obtain rfl := Option.some.inj h
    rw [visitsFrom_eq]
    exact ⟨_, List.mem_cons_self .., rfl, rfl⟩
  | append_singleton q i ih =>
    rw [down?_append, down?, down?, Option.bind_some] at h
    obtain ⟨c, hc, hm⟩ := Option.bind_eq_some_iff.1 h
    obtain ⟨v, hv, hpath, hnode⟩ := ih (n :: above) (i :: p) hm
    refine ⟨v, ?_, by simp [hpath], hnode⟩
    rw [visitsFrom_eq]
    exact List.mem_cons_of_mem _ (List.mem_flatMap.2 ⟨(c, i), List.mem_zipIdx_iff_getElem?.2 hc, hv⟩)

theorem exists_mem_visits (h : n.down? p = some m) : ∃ v ∈ n.visits, v.path = p ∧ v.node = m := by
  obtain ⟨v, hv, hpath, hnode⟩ := exists_mem_visitsFrom [] [] h
  exact ⟨v, hv, by simpa using hpath, hnode⟩

theorem pairwise_zipIdx {α : Type} (as : List α) : as.zipIdx.Pairwise fun a b => a.2 < b.2 := by
  rw [← List.pairwise_map (f := fun a : α × Nat => a.2) (R := (· < ·)), List.zipIdx_map_snd]
  exact List.pairwise_lt_range' ..

/-- **A walk meets the nodes in pre-order**, each in front of what is below it and of what is below a
later child of a node above it. -/
theorem visitsFrom_ordered (above : List Node) (p : List Nat) (n : Node) :
    (n.visitsFrom above p).Pairwise fun a b => Earlier a.path b.path := by
  have hrec : ∀ c ∈ n.children, ∀ i,
      (c.visitsFrom (n :: above) (i :: p)).Pairwise fun a b => Earlier a.path b.path :=
    fun c h i => visitsFrom_ordered (n :: above) (i :: p) c
  have hpath : ∀ {c : Node} {i : Nat} {v : Visit}, v ∈ c.visitsFrom (n :: above) (i :: p) →
      ∃ q, v.path = q ++ i :: p := by
    intro c i v hv
    obtain ⟨q, hq, -⟩ := exists_of_mem_visitsFrom hv
    exact ⟨q, hq⟩
  rw [visitsFrom_eq, List.pairwise_cons, List.pairwise_flatMap]
  refine ⟨?root, ?same, ?different⟩
  case root =>
    intro b hb
    obtain ⟨⟨c, i⟩, -, hb⟩ := List.mem_flatMap.1 hb
    obtain ⟨q, hq⟩ := hpath hb
    exact hq ▸ .below
  case same =>
    rintro ⟨c, i⟩ hc
    exact hrec c (List.mem_of_getElem? (List.mem_zipIdx_iff_getElem?.1 hc)) i
  case different =>
    refine (pairwise_zipIdx n.children).imp fun {x y} hlt a ha b hb => ?_
    obtain ⟨q, hq⟩ := hpath ha
    obtain ⟨r, hr⟩ := hpath hb
    -- both ways begin with `p`, and then take different steps
    rw [hq, hr]
    exact .beside hlt
termination_by sizeOf n
decreasing_by exact sizeOf_lt_of_mem_children h

theorem visits_ordered (n : Node) : n.visits.Pairwise fun a b => Earlier a.path b.path :=
  visitsFrom_ordered [] [] n

/-- **No node is met before one above it.** -/
theorem visits_pairwise (n : Node) : n.visits.Pairwise fun a b => ¬ b.path <:+ a.path :=
  n.visits_ordered.imp Earlier.not_suffix

end Code.Node

/-! ## What a call changes -/

/-- A rule says that a part of a call is changed: the receiver, an argument at a position, or
the value of a keyword. -/
inductive Rule.Changes (rule : Rule) : Expr → List Expr → List Keyword → Expr → Prop
  | receiver {span : Span} {value : Expr} {member : String} {arguments : List Expr}
      {keywords : List Keyword} : rule.mutatesReceiver = true →
      rule.Changes (.at span (.attribute value member)) arguments keywords value
  | position {callee e : Expr} {arguments : List Expr} {keywords : List Keyword} {p : Nat} :
      p ∈ rule.positions → arguments[p]? = some e → rule.Changes callee arguments keywords e
  | keyword {callee e : Expr} {arguments : List Expr} {keywords : List Keyword} {span : Span}
      {word : String} : Text.ofString word ∈ rule.keywords → .at span (some word) e ∈ keywords →
      rule.Changes callee arguments keywords e

/-- A node is the name that a reference tells. -/
def Code.Node.Names (n : Node) (r : Reference) : Prop :=
  ∃ id, n = .expr (.at r.span (.name id)) ∧ Text.ofString id = r.name

/-- The calls in a statement change a name: it is in a part of a call that a rule for the
name of the function says is changed. -/
def Code.Stmt.Mutates (rules : Rules) (s : Stmt) (r : Reference) : Prop :=
  ∃ span callee arguments keywords,
    (Node.stmt s).Under (.expr (.at span (.call callee arguments keywords))) ∧
    ∃ rule ∈ rules.list, (calleeName? callee).map Text.ofString = some rule.function ∧
      ∃ e, rule.Changes callee arguments keywords e ∧ ∃ n, (Node.expr e).Under n ∧ n.Names r

section Marks

variable {rule : Rule} {rules : Rules} {span : Span} {callee : Expr} {arguments : List Expr}
  {keywords : List Keyword}

theorem exists_of_hasReceiver (h : hasReceiver callee = true) :
    ∃ span value member, callee = .at span (.attribute value member) := by
  unfold hasReceiver at h
  split at h
  · exact ⟨_, _, _, rfl⟩
  · cases h

/-- The way down from a call to its receiver. -/
theorem down?_receiver {span' : Span} {value : Expr} {member : String} :
    (Node.expr (.at span (.call (.at span' (.attribute value member)) arguments keywords))).down? [0, 0] =
      some (.expr value) := rfl

/-- The way down from a call to an argument. -/
theorem down?_argument {p : Nat} (h : p < arguments.length) :
    (Node.expr (.at span (.call callee arguments keywords))).down? [p + 1] =
      some (.expr arguments[p]) := by
  simp [Node.down?, Node.children, ExprForm.children, List.getElem?_append_left, h]

/-- The way down from a call to the value of a keyword. -/
theorem down?_keyword {i : Nat} {k : Keyword} (h : keywords[i]? = some k) :
    (Node.expr (.at span (.call callee arguments keywords))).down? [0, i + arguments.length + 1] =
      some (.expr k.value) := by
  obtain ⟨span, name, value⟩ := k
  simp [Node.down?, Node.children, ExprForm.children, List.getElem?_append_right, h, Keyword.value]

/-- **The marks of a rule at a call lead down to the parts that it changes.** -/
theorem Rule.exists_mark_iff (span : Span) {n : Node} :
    (∃ k ∈ rule.marks callee arguments keywords,
      (Node.expr (.at span (.call callee arguments keywords))).down? k = some n) ↔
    ∃ e, rule.Changes callee arguments keywords e ∧ n = .expr e := by
  constructor
  · rintro ⟨k, hk, hdown⟩
    simp only [Rule.marks, List.mem_append, List.mem_map, List.mem_flatMap, List.mem_filter,
      decide_eq_true_eq, or_assoc] at hk
    rcases hk with hreceiver | ⟨p, ⟨hp, hlt⟩, rfl⟩ | ⟨word, hword, ⟨k, i⟩, ⟨hk, hname⟩, rfl⟩
    · split at hreceiver
      case isFalse => exact absurd hreceiver List.not_mem_nil
      case isTrue h =>
        obtain rfl := List.mem_singleton.1 hreceiver
        obtain ⟨hmutates, hattribute⟩ := (Bool.and_eq_true ..).mp h
        obtain ⟨span', value, member, rfl⟩ := exists_of_hasReceiver hattribute
        rw [down?_receiver, Option.some.injEq] at hdown
        exact ⟨value, .receiver hmutates, hdown.symm⟩
    · rw [down?_argument hlt, Option.some.injEq] at hdown
      exact ⟨_, .position hp (List.getElem?_eq_getElem hlt), hdown.symm⟩
    · rw [List.mem_zipIdx_iff_getElem?] at hk
      rw [down?_keyword hk, Option.some.injEq] at hdown
      obtain ⟨span', name, value⟩ := k
      obtain ⟨id, rfl, rfl⟩ : ∃ id, name = some id ∧ Text.ofString id = word := by
        simpa [Keyword.name] using hname
      exact ⟨value, .keyword hword (List.mem_of_getElem? hk), hdown.symm⟩
  · rintro ⟨e, hchanges, rfl⟩
    cases hchanges with
    | receiver hmutates =>
      refine ⟨[0, 0], ?_, down?_receiver⟩
      simp [Rule.marks, hmutates, hasReceiver]
    | @position _ _ _ _ p hp he =>
      obtain ⟨hlt, rfl⟩ := List.getElem?_eq_some_iff.1 he
      refine ⟨[p + 1], ?_, down?_argument hlt⟩
      simp [Rule.marks, hp, hlt]
    | @keyword _ _ _ _ span' word hword hk =>
      obtain ⟨i, hi⟩ := List.getElem?_of_mem hk
      refine ⟨_, ?_, down?_keyword hi⟩
      refine List.mem_append_right _ (List.mem_flatMap.2 ⟨_, hword, List.mem_map.2 ?_⟩)
      refine ⟨(.at span' (some word) e, i), List.mem_filter.2 ⟨?_, by simp [Keyword.name]⟩, rfl⟩
      exact List.mem_zipIdx_iff_getElem?.2 hi

/-- The marks of a visit are below it. -/
theorem Code.Visit.mem_marks {v : Visit} {m : List Nat} :
    m ∈ v.marks rules ↔ ∃ span callee arguments keywords,
      v.node = .expr (.at span (.call callee arguments keywords)) ∧
      ∃ k ∈ rules.marks callee arguments keywords, m = k ++ v.path := by
  unfold Visit.marks
  split
  · rename_i span callee arguments keywords hnode
    simp [hnode, eq_comm]
  · rename_i hnode
    simp only [List.not_mem_nil, false_iff]
    rintro ⟨span, callee, arguments, keywords, h, -⟩
    exact hnode _ _ _ _ h

end Marks

/-! ## Names -/

variable {rules : Rules}

theorem Code.Visit.isMarked_iff {marks : List (List Nat)} {v : Visit} :
    v.isMarked marks = true ↔ ∃ m ∈ marks, m <:+ v.path := by
  simp [isMarked]

theorem Code.Node.name?_eq_some_iff {n : Node} {id : String} {span : Span} :
    n.name? = some (id, span) ↔ n = .expr (.at span (.name id)) := by
  unfold Node.name?
  split
  · simp [and_comm]
  · rename_i hnode
    simp only [reduceCtorEq, false_iff]
    rintro rfl
    exact hnode _ _ rfl

/-- A name marks nothing. -/
theorem Code.Visit.marks_eq_nil {v : Visit} {r : Reference} (h : v.node.Names r) : v.marks rules = [] := by
  refine List.eq_nil_iff_forall_not_mem.2 fun m hm => ?_
  obtain ⟨span, callee, arguments, keywords, hnode, -⟩ := mem_marks.1 hm
  obtain ⟨id, hname, -⟩ := h
  rw [hnode] at hname
  cases hname

theorem mem_markedNames_cons {marks : List (List Nat)} {v : Visit} {rest : List Visit} {r : Reference} :
    r ∈ markedNames rules marks (v :: rest) ↔
      (v.node.Names r ∧ ∃ m ∈ marks, m <:+ v.path) ∨
        r ∈ markedNames rules (marks ++ v.marks rules) rest := by
  rw [markedNames, List.mem_append, ← Visit.isMarked_iff]
  refine or_congr_left ?_
  obtain ⟨word, span⟩ := r
  have hnames : v.node.Names ⟨word, span⟩ ↔ ∃ id, v.node.name? = some (id, span) ∧ Text.ofString id = word :=
    exists_congr fun id => and_congr_left fun _ => Node.name?_eq_some_iff.symm
  rw [hnames]
  cases v.node.name? with
  | none => simp
  | some name =>
    by_cases h : v.isMarked marks = true
    · simp [h, Prod.ext_iff, eq_comm, and_comm]
    · simp [h]

/-- **A walk finds each name at or below a mark**, wherever the mark is made, if no node is met
before one above it. -/
theorem mem_markedNames {visits : List Visit} {r : Reference} :
    ∀ {marks : List (List Nat)}, visits.Pairwise (fun a b => ¬ b.path <:+ a.path) →
      (r ∈ markedNames rules marks visits ↔ ∃ v ∈ visits, v.node.Names r ∧
        ∃ m, (m ∈ marks ∨ ∃ w ∈ visits, m ∈ w.marks rules) ∧ m <:+ v.path) := by
  induction visits with
  | nil => simp [markedNames]
  | cons v rest ih =>
    intro marks horder
    obtain ⟨hfirst, hrest⟩ := List.pairwise_cons.1 horder
    -- neither the name itself nor what comes after it marks anything above it
    have hearlier : ∀ m, v.node.Names r → m <:+ v.path →
        (m ∈ marks ∨ ∃ w ∈ v :: rest, m ∈ w.marks rules) → m ∈ marks := by
      rintro m hname hm (hmarks | ⟨w, hw, hmw⟩)
      · exact hmarks
      · rcases List.mem_cons.1 hw with rfl | hw
        · simp [Visit.marks_eq_nil hname] at hmw
        · obtain ⟨-, -, -, -, -, k, -, rfl⟩ := Visit.mem_marks.1 hmw
          exact absurd ((List.suffix_append ..).trans hm) (hfirst w hw)
    rw [mem_markedNames_cons, ih hrest, List.exists_mem_cons_iff]
    refine or_congr (and_congr_right fun hname => ?_) (exists_congr fun u => and_congr_right fun hu => ?_)
    · constructor
      · rintro ⟨m, hm, hsuffix⟩
        exact ⟨m, .inl hm, hsuffix⟩
      · rintro ⟨m, hm, hsuffix⟩
        exact ⟨m, hearlier m hname hsuffix hm, hsuffix⟩
    · simp only [List.mem_append, List.exists_mem_cons_iff, or_assoc]

/-- **The names that the walk of a statement finds are those that its calls change.** -/
theorem mem_markedNames_visits {s : Stmt} {r : Reference} :
    r ∈ markedNames rules [] (Node.stmt s).visits ↔ s.Mutates rules r := by
  rw [mem_markedNames (Node.visits_pairwise _)]
  constructor
  · rintro ⟨v, hv, hnames, m, hm, q, hpath⟩
    obtain ⟨w, hw, hm⟩ := hm.resolve_left List.not_mem_nil
    obtain ⟨span, callee, arguments, keywords, hnode, k, hk, rfl⟩ := Visit.mem_marks.1 hm
    obtain ⟨rule, hrule, hcallee, hk⟩ := Rules.mem_marks.1 hk
    have hcall := Node.down?_of_mem_visits hw
    have hdown := Node.down?_of_mem_visits hv
    -- the way to the name is the one to the call, then the mark, then the rest
    rw [← hpath, Node.down?_append, Node.down?_append, hcall, hnode, Option.bind_some] at hdown
    obtain ⟨n, hn, hq⟩ := Option.bind_eq_some_iff.1 hdown
    obtain ⟨e, hchanges, rfl⟩ := (Rule.exists_mark_iff span).1 ⟨k, hk, hn⟩
    exact ⟨span, callee, arguments, keywords, Node.under_iff_down?.2 ⟨_, hnode ▸ hcall⟩, rule, hrule, hcallee,
      e, hchanges, _, Node.under_iff_down?.2 ⟨q, hq⟩, hnames⟩
  · rintro ⟨span, callee, arguments, keywords, hcall, rule, hrule, hcallee, e, hchanges, n, hunder, hnames⟩
    obtain ⟨p, hp⟩ := Node.under_iff_down?.1 hcall
    obtain ⟨k, hk, hdown⟩ := (Rule.exists_mark_iff span).2 ⟨e, hchanges, rfl⟩
    obtain ⟨q, hq⟩ := Node.under_iff_down?.1 hunder
    have hname : (Node.stmt s).down? (q ++ (k ++ p)) = some n := by
      rw [Node.down?_append, Node.down?_append, hp, Option.bind_some, hdown, Option.bind_some, hq]
    obtain ⟨w, hw, hwpath, hwnode⟩ := Node.exists_mem_visits hp
    obtain ⟨v, hv, hvpath, hvnode⟩ := Node.exists_mem_visits hname
    refine ⟨v, hv, hvnode ▸ hnames, k ++ p, .inr ⟨w, hw, ?_⟩, hvpath ▸ List.suffix_append ..⟩
    exact Visit.mem_marks.2 ⟨span, callee, arguments, keywords, hwnode, k,
      Rules.mem_marks.2 ⟨rule, hrule, hcallee, hk⟩, by rw [hwpath]⟩

/-- The nodes of a tree level by level are those under its root. -/
theorem Code.Node.mem_breadthFirst_iff {n m : Node} : m ∈ n.breadthFirst ↔ n.Under m := by
  have hstep : m ∈ n.breadthFirst ↔ m = n ∨ ∃ c ∈ n.children, m ∈ c.breadthFirst := by
    rw [breadthFirst_eq, List.mem_cons, (levels_perm n.children).mem_iff, List.mem_flatMap]
  have hrec : ∀ c ∈ n.children, (m ∈ c.breadthFirst ↔ c.Under m) := fun c _ => mem_breadthFirst_iff
  rw [hstep, Under, ReflTransGen.cases_head_iff]
  refine or_congr eq_comm (exists_congr fun c => and_congr_right fun hc => hrec c hc)
termination_by sizeOf n
decreasing_by exact sizeOf_lt_of_mem_children (by assumption)

theorem Code.Node.mem_names_iff {n : Node} {r : Reference} :
    r ∈ n.names ↔ ∃ m, n.Under m ∧ m.Names r := by
  obtain ⟨word, span⟩ := r
  simp only [names, List.mem_filterMap, ← mem_breadthFirst_iff]
  refine exists_congr fun m => and_congr_right fun _ => ?_
  constructor
  · intro hname
    obtain ⟨⟨id, span'⟩, hid, heq⟩ := Option.map_eq_some_iff.1 hname
    cases heq
    exact ⟨id, name?_eq_some_iff.1 hid, rfl⟩
  · rintro ⟨id, rfl, rfl⟩
    rfl

/-- What a rule changes at a call is a part of the call. -/
theorem Rule.Changes.under {rule : Rule} {callee e : Expr} {arguments : List Expr} {keywords : List Keyword}
    (h : rule.Changes callee arguments keywords e) (span : Span) :
    (Node.expr (.at span (.call callee arguments keywords))).Under (.expr e) := by
  obtain ⟨k, -, hk⟩ := (Rule.exists_mark_iff span).2 ⟨e, h, rfl⟩
  exact Node.under_iff_down?.2 ⟨k, hk⟩

/-- A name that the calls in a statement change stands in the statement. -/
theorem Code.Stmt.Mutates.mem_names {s : Stmt} {r : Reference} (h : s.Mutates rules r) :
    r ∈ (Node.stmt s).names := by
  obtain ⟨span, callee, arguments, keywords, hcall, rule, -, -, e, hchanges, n, hunder, hnames⟩ := h
  exact Node.mem_names_iff.2 ⟨n, (hcall.trans (hchanges.under span)).trans hunder, hnames⟩

/-- The targets and the sources of a statement that binds the names in its targets and
reads those in its sources alone. -/
def Code.StmtForm.binding? : StmtForm → Option (List Expr × List Expr)
  | .assign targets value => some (targets, [value])
  | .annAssign target hint (some value) _ => some ([target], [value, hint])
  | _ => none

/-- A name stands in a target of such a statement, and is not the name of anything in its
sources. -/
def Code.Stmt.OnlyBinds (s : Stmt) (r : Reference) : Prop :=
  ∃ targets sources, s.form.binding? = some (targets, sources) ∧
    r ∈ namesUnder (targets.map .expr) ∧ ∀ r' ∈ namesUnder (sources.map .expr), r'.name ≠ r.name

/-- Such a statement has the names in its targets and in its sources, and reads the latter. -/
theorem Code.Stmt.uses_of_binding {s : Stmt} {targets sources : List Expr}
    (h : s.form.binding? = some (targets, sources)) :
    s.uses = namesUnder (sources.map .expr) ∧ ∀ r ∈ (Node.stmt s).names,
      r ∈ namesUnder (targets.map .expr) ∨ r ∈ namesUnder (sources.map .expr) := by
  obtain ⟨span, form⟩ := s
  have hparts : ∀ r ∈ (Node.stmt (.at span form)).names, r ∈ namesUnder form.children :=
    fun r hr => (Node.names_perm rfl).mem_iff.1 hr
  cases form with
  | assign _ value =>
    cases h
    exact ⟨rfl, fun r hr => by simpa [StmtForm.children] using hparts r hr⟩
  | annAssign target hint value bare =>
    cases value with
    | none => cases h
    | some value =>
      cases h
      refine ⟨rfl, fun r hr => ?_⟩
      have hpart := hparts r hr
      simp only [StmtForm.children, namesUnder_cons, List.mem_append] at hpart
      exact hpart.imp (List.mem_append_left _) fun h => by simpa [or_comm] using h
  | _ => cases h

/-- Any other statement reads all its names. -/
theorem Code.Stmt.mem_uses_of_binding_none {s : Stmt} (h : s.form.binding? = none) {r : Reference}
    (hr : r ∈ (Node.stmt s).names) : r ∈ s.uses := by
  obtain ⟨span, form⟩ := s
  cases form with
  | assign targets value => cases h
  | augAssign target op value =>
    have hparts : r ∈ namesUnder [.expr target, .expr value] := (Node.names_perm rfl).mem_iff.1 hr
    have huses : Stmt.uses (.at span (.augAssign target op value)) =
        namesUnder [.expr value, .expr target] := rfl
    rw [huses]
    exact (namesUnder_perm (.swap ..)).mem_iff.1 hparts
  | annAssign target hint value bare =>
    cases value with
    | none => exact hr
    | some value => cases h
  | _ => exact hr

/-- **A statement reads the names that stand in it**, but for those that it only binds. -/
theorem Code.Stmt.mem_uses_iff {s : Stmt} {r : Reference} (hr : r ∈ (Node.stmt s).names) :
    (∃ r' ∈ s.uses, r'.name = r.name) ↔ ¬ s.OnlyBinds r := by
  cases hbinding : s.form.binding? with
  | none =>
    refine iff_of_true ⟨r, mem_uses_of_binding_none hbinding hr, rfl⟩ ?_
    rintro ⟨targets, sources, h, -⟩
    cases hbinding.symm.trans h
  | some parts =>
    obtain ⟨targets, sources⟩ := parts
    obtain ⟨huses, hnames⟩ := uses_of_binding hbinding
    rw [huses]
    constructor
    · rintro ⟨r', hr', hname⟩ ⟨targets', sources', h, -, hnone⟩
      cases hbinding.symm.trans h
      exact hnone r' hr' hname
    · intro hbinds
      rcases hnames r hr with htarget | hsource
      · by_contra hnone
        exact hbinds ⟨targets, sources, hbinding, htarget, fun r' hr' hname => hnone ⟨r', hr', hname⟩⟩
      · exact ⟨r, hsource, rfl⟩

/-- **What the calls in a statement change is read by the statement**, unless the statement
only binds it, in a target. If it is read, all definitions of the name that reach the statement
flow into it. -/
theorem mutated_read_iff (rules : Rules) (s : Stmt) {d : Definition} (hd : d ∈ mutationDefinitions rules s) :
    (d.name ∈ (s.effect rules).uses ↔ ¬ s.OnlyBinds d.identity) ∧
      (¬ s.OnlyBinds d.identity → ∀ ds : Definitions, ∀ e ∈ ds, e.name = d.name →
        ⟨e.owner.span, s.span⟩ ∈ (s.effect rules).edges ds) := by
  obtain ⟨r, hr, rfl⟩ := mem_mutationDefinitions.1 hd
  rw [mem_markedNames_visits] at hr
  have hread : (s.mutation r).name ∈ (s.effect rules).uses ↔ ¬ s.OnlyBinds r := by
    rw [← Stmt.mem_uses_iff hr.mem_names]
    simp [Stmt.effect, Stmt.mutation]
  refine ⟨hread, fun h ds e he hname => Effect.mem_edges.2 ⟨e, he, ?_, rfl⟩⟩
  rw [hname]
  exact hread.2 h

open Code in
/-- `head = queue.pop(0)`. -/
def Code.Stmt.queuePop : Stmt :=
  let queue : Expr := .at ⟨1, 7, 1, 12⟩ (.name "queue")
  let zero : Expr := .at ⟨1, 17, 1, 18⟩ (.constant (.int 0))
  .at ⟨1, 0, 1, 19⟩ (.assign [.at ⟨1, 0, 1, 4⟩ (.name "head")]
    (.at ⟨1, 7, 1, 19⟩ (.call (.at ⟨1, 7, 1, 16⟩ (.attribute queue "pop")) [zero] [])))

/-- The queue is changed, and what it was before flows into the statement. -/
theorem queuePop_read :
    let d := Stmt.queuePop.mutation ⟨"queue", ⟨1, 7, 1, 12⟩⟩
    d ∈ mutationDefinitions .default .queuePop ∧ d.name ∈ (Stmt.queuePop.effect .default).uses ∧
      ∀ ds : Definitions, ∀ e ∈ ds, e.name = "queue" →
        ⟨e.owner.span, Stmt.queuePop.span⟩ ∈ (Stmt.queuePop.effect .default).edges ds := by
  intro d
  have hd : d ∈ mutationDefinitions .default .queuePop :=
    mem_mutationDefinitions.2 ⟨⟨"queue", ⟨1, 7, 1, 12⟩⟩, by decide +kernel, rfl⟩
  have hread : d.name ∈ (Stmt.queuePop.effect .default).uses := by decide +kernel
  have hiff := mutated_read_iff .default .queuePop hd
  exact ⟨hd, hread, hiff.2 (hiff.1.1 hread)⟩

open Code in
/-- `b[a.append(1)] = 2`. -/
def Code.Stmt.appendInTarget : Stmt :=
  let a : Expr := .at ⟨1, 2, 1, 3⟩ (.name "a")
  let one : Expr := .at ⟨1, 11, 1, 12⟩ (.constant (.int 1))
  let call : Expr := .at ⟨1, 2, 1, 13⟩ (.call (.at ⟨1, 2, 1, 10⟩ (.attribute a "append")) [one] [])
  .at ⟨1, 0, 1, 18⟩ (.assign [.at ⟨1, 0, 1, 14⟩ (.subscript (.at ⟨1, 0, 1, 1⟩ (.name "b")) call)]
    (.at ⟨1, 17, 1, 18⟩ (.constant (.int 2))))

/-- **A changed name that is not read.** The call in the target changes `a`, but no definition
flows into the statement. -/
theorem appendInTarget_not_read :
    ∃ d ∈ mutationDefinitions .default .appendInTarget, d.identity = ⟨"a", ⟨1, 2, 1, 3⟩⟩ ∧
      d.name ∉ (Stmt.appendInTarget.effect .default).uses ∧
      ∀ ds, (Stmt.appendInTarget.effect .default).edges ds = [] := by
  have hmarked : ⟨"a", ⟨1, 2, 1, 3⟩⟩ ∈ markedNames .default [] (Node.stmt .appendInTarget).visits := by
    decide +kernel
  have huses : (Stmt.appendInTarget.effect .default).uses = [] := by decide +kernel
  refine ⟨_, mem_mutationDefinitions.2 ⟨_, hmarked, rfl⟩, rfl, by simp [huses], fun ds => ?_⟩
  simp [Effect.edges, huses]

end Reaching
