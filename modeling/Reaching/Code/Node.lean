/-
Trees as nodes with children, and the two ways to walk them.

A node is any part of a tree: a module, a statement, an expression or one of
the parts these are made of. Its children stand in a fixed order, which is
the order of the fields of its kind and not always that of the source: the
decorators of a definition come after its body.

`Node.visits` walks depth first and says for each node the way down to it;
`Node.breadthFirst` lists the nodes level by level. Both rest on one fact,
`Node.sizeOf_lt_of_mem_children`: a child is smaller than its parent.
-/
import Reaching.Code.Stmt

namespace Reaching.Code

/-- A part of a tree. -/
inductive Node where
  | module (module : Module)
  | stmt (stmt : Stmt)
  | expr (expr : Expr)
  | pattern (pattern : Pattern)
  | keyword (keyword : Keyword)
  | comprehension (comprehension : Comprehension)
  | parameters (parameters : Parameters)
  | parameter (parameter : Parameter)
  | handler (handler : Handler)
  | case (case : Case)
  | withItem (item : WithItem)
  | importName (item : Alias)

/-! ## Children -/

/-- The key of a pair. -/
def DictItem.key? : DictItem → Option Expr
  | .pair key _ => some key
  | .spread _ => none

/-- The value of a pair, or the mapping that is spread. -/
def DictItem.value : DictItem → Expr
  | .pair _ value => value
  | .spread value => value

/-- The children of an expression. -/
def ExprForm.children : ExprForm → List Node
  | .boolean _ operands => operands.map .expr
  | .named target value => [.expr target, .expr value]
  | .binary left _ right => [.expr left, .expr right]
  | .unary _ operand => [.expr operand]
  | .lambda parameters body => [.parameters parameters, .expr body]
  | .conditional test body orelse => [.expr test, .expr body, .expr orelse]
  | .dict items => (items.filterMap DictItem.key?).map .expr ++ items.map fun i => .expr i.value
  | .set elements => elements.map .expr
  | .listComp element clauses => .expr element :: clauses.map .comprehension
  | .setComp element clauses => .expr element :: clauses.map .comprehension
  | .dictComp key value clauses => .expr key :: .expr value :: clauses.map .comprehension
  | .generator element clauses => .expr element :: clauses.map .comprehension
  | .await value => [.expr value]
  | .yield value => value.toList.map .expr
  | .yieldFrom value => [.expr value]
  | .compare left _ comparators => .expr left :: comparators.map .expr
  | .call callee arguments keywords =>
    .expr callee :: (arguments.map .expr ++ keywords.map .keyword)
  | .formatted value _ spec => .expr value :: spec.toList.map .expr
  | .joined parts => parts.map .expr
  | .constant _ => []
  | .attribute value _ => [.expr value]
  | .subscript value index => [.expr value, .expr index]
  | .starred value => [.expr value]
  | .name _ => []
  | .list elements => elements.map .expr
  | .tuple elements => elements.map .expr
  | .slice lower upper step =>
    lower.toList.map .expr ++ upper.toList.map .expr ++ step.toList.map .expr

/-- The parameters by their kinds, the defaults of those that must be named in
front of the parameter that takes all other keywords, and the remaining
defaults last. -/
def Parameters.children : Parameters → List Node
  | .of positionalOnly regular rest keywordOnly keywords =>
    positionalOnly.map .parameter ++ regular.map .parameter ++ rest.toList.map .parameter
      ++ keywordOnly.map .parameter ++ (keywordOnly.filterMap Parameter.default).map .expr
      ++ keywords.toList.map .parameter
      ++ (positionalOnly.filterMap Parameter.default).map .expr
      ++ (regular.filterMap Parameter.default).map .expr

/-- The children of a pattern. -/
def PatternForm.children : PatternForm → List Node
  | .value e => [.expr e]
  | .singleton _ => []
  | .sequence patterns => patterns.map .pattern
  | .mapping keys patterns _ => keys.map .expr ++ patterns.map .pattern
  | .classOf cls patterns _ named => .expr cls :: (patterns.map .pattern ++ named.map .pattern)
  | .star _ => []
  | .capture pattern _ => pattern.toList.map .pattern
  | .either patterns => patterns.map .pattern

/-- The children of a statement. -/
def StmtForm.children : StmtForm → List Node
  | .function _ _ parameters body decorators returns =>
    .parameters parameters :: (body.map .stmt ++ decorators.map .expr ++ returns.toList.map .expr)
  | .classDef _ bases keywords body decorators =>
    bases.map .expr ++ keywords.map .keyword ++ body.map .stmt ++ decorators.map .expr
  | .ret value => value.toList.map .expr
  | .delete targets => targets.map .expr
  | .assign targets value => targets.map .expr ++ [.expr value]
  | .augAssign target _ value => [.expr target, .expr value]
  | .annAssign target hint value _ =>
    .expr target :: .expr hint :: value.toList.map .expr
  | .forLoop _ target iter body orelse =>
    .expr target :: .expr iter :: (body.map .stmt ++ orelse.map .stmt)
  | .whileLoop test body orelse => .expr test :: (body.map .stmt ++ orelse.map .stmt)
  | .ifElse test body orelse => .expr test :: (body.map .stmt ++ orelse.map .stmt)
  | .withItems _ items body => items.map .withItem ++ body.map .stmt
  | .matchCases subject cases => .expr subject :: cases.map .case
  | .raising error cause => error.toList.map .expr ++ cause.toList.map .expr
  | .tryBlock _ body handlers orelse finalbody =>
    body.map .stmt ++ handlers.map .handler ++ orelse.map .stmt ++ finalbody.map .stmt
  | .assertion test message => .expr test :: message.toList.map .expr
  | .importNames names => names.map .importName
  | .importFrom _ names _ => names.map .importName
  | .globalNames _ => []
  | .nonlocalNames _ => []
  | .expr value => [.expr value]
  | .pass => []
  | .breakLoop => []
  | .continueLoop => []

/-- The children of a node, in the order in which they are walked. -/
def Node.children : Node → List Node
  | .module ⟨body⟩ => body.map .stmt
  | .stmt (.at _ form) => form.children
  | .expr (.at _ form) => form.children
  | .pattern (.at _ form) => form.children
  | .keyword (.at _ _ value) => [.expr value]
  | .comprehension (.over target iter conditions _) =>
    .expr target :: .expr iter :: conditions.map .expr
  | .parameters ps => ps.children
  | .parameter (.at _ _ hint _) => hint.toList.map .expr
  | .handler (.at _ type _ body) => type.toList.map .expr ++ body.map .stmt
  | .case (.of p guard body) => .pattern p :: (guard.toList.map .expr ++ body.map .stmt)
  | .withItem ⟨context, target⟩ => .expr context :: target.toList.map .expr
  | .importName _ => []

/-! ## A child is smaller than its parent -/

/-- No node of a list is larger than `n`. -/
def Below (n : Nat) (nodes : List Node) : Prop := ∀ c ∈ nodes, sizeOf c ≤ n

@[simp] theorem below_nil {n : Nat} : Below n [] := by simp [Below]

@[simp] theorem below_cons {n : Nat} {c : Node} {cs : List Node} :
    Below n (c :: cs) ↔ sizeOf c ≤ n ∧ Below n cs := by simp [Below]

@[simp] theorem below_append {n : Nat} {cs ds : List Node} :
    Below n (cs ++ ds) ↔ Below n cs ∧ Below n ds := by
  simp only [Below, List.mem_append]
  exact ⟨fun h => ⟨fun c hc => h c (.inl hc), fun c hc => h c (.inr hc)⟩,
    fun h c hc => hc.elim (h.1 c) (h.2 c)⟩

theorem below_map {α : Type} [SizeOf α] {n : Nat} {f : α → Node} {as : List α}
    (hf : ∀ a, sizeOf (f a) = 1 + sizeOf a) (h : sizeOf as ≤ n) : Below n (as.map f) := by
  intro c hc
  obtain ⟨a, ha, rfl⟩ := List.mem_map.1 hc
  have := List.sizeOf_lt_of_mem ha
  rw [hf]; omega

theorem below_toList {α : Type} [SizeOf α] {n : Nat} {f : α → Node} {o : Option α}
    (hf : ∀ a, sizeOf (f a) = 1 + sizeOf a) (h : sizeOf o ≤ n) : Below n (o.toList.map f) := by
  cases o with
  | none => simp
  | some a => simp at h ⊢; rw [hf]; exact h

/-- Parts of the elements of a list are no larger than the list. -/
theorem below_parts {α : Type} [SizeOf α] {n : Nat} {g : α → Option Expr} {as : List α}
    (hg : ∀ a e, g a = some e → sizeOf e < sizeOf a) (h : sizeOf as ≤ n) :
    Below n ((as.filterMap g).map .expr) := by
  intro c hc
  obtain ⟨e, he, rfl⟩ := List.mem_map.1 hc
  obtain ⟨a, ha, hae⟩ := List.mem_filterMap.1 he
  have := List.sizeOf_lt_of_mem ha
  have := hg a e hae
  simp; omega

theorem DictItem.sizeOf_key?_lt (i : DictItem) (e : Expr) (h : i.key? = some e) :
    sizeOf e < sizeOf i := by
  cases i with
  | pair key value =>
    obtain rfl : key = e := by simpa [DictItem.key?] using h
    simp; omega
  | spread value => simp [DictItem.key?] at h

theorem DictItem.sizeOf_value_lt (i : DictItem) : sizeOf i.value < sizeOf i := by
  cases i with
  | pair key value => simp only [DictItem.value, DictItem.pair.sizeOf_spec]; omega
  | spread value => simp only [DictItem.value, DictItem.spread.sizeOf_spec]; omega

theorem Parameter.sizeOf_default_lt (p : Parameter) (e : Expr) (h : p.default = some e) :
    sizeOf e < sizeOf p := by
  cases p with
  | «at» span name hint default =>
    obtain rfl : default = some e := by simpa [Parameter.default] using h
    simp; omega

theorem ExprForm.children_below (f : ExprForm) : Below (sizeOf f) f.children := by
  cases f with
  | dict items =>
    simp only [ExprForm.children, below_append]
    refine ⟨below_parts DictItem.sizeOf_key?_lt (by simp), fun c hc => ?_⟩
    obtain ⟨i, hi, rfl⟩ := List.mem_map.1 hc
    have := List.sizeOf_lt_of_mem hi
    have := DictItem.sizeOf_value_lt i
    simp; omega
  | _ =>
    simp only [ExprForm.children, below_append, below_cons, below_nil, and_true]
    first
    | done
    | (repeat' apply And.intro) <;>
        first
        | exact below_toList (fun _ => rfl) (by simp; try omega)
        | exact below_map (fun _ => rfl) (by simp; try omega)
        | (simp; try omega)

theorem Parameters.children_below (ps : Parameters) : Below (sizeOf ps) ps.children := by
  cases ps
  simp only [Parameters.children, below_append]
  (repeat' apply And.intro) <;>
    first
    | exact below_toList (fun _ => rfl) (by simp; try omega)
    | exact below_parts Parameter.sizeOf_default_lt (by simp; try omega)
    | exact below_map (fun _ => rfl) (by simp; try omega)

theorem PatternForm.children_below (f : PatternForm) : Below (sizeOf f) f.children := by
  cases f <;> simp only [PatternForm.children, below_append, below_cons, below_nil, and_true]
  all_goals
    (repeat' apply And.intro) <;>
      first
      | exact below_toList (fun _ => rfl) (by simp; try omega)
      | exact below_map (fun _ => rfl) (by simp; try omega)
      | (simp; try omega)

theorem StmtForm.children_below (f : StmtForm) : Below (sizeOf f) f.children := by
  cases f <;> simp only [StmtForm.children, below_append, below_cons, below_nil, and_true]
  all_goals
    (repeat' apply And.intro) <;>
      first
      | exact below_toList (fun _ => rfl) (by simp; try omega)
      | exact below_map (fun _ => rfl) (by simp; try omega)
      | (simp; try omega)

theorem Expr.sizeOf_pos (e : Expr) : 0 < sizeOf e := by
  cases e
  simp only [Expr.at.sizeOf_spec]
  omega

/-- **A child is smaller than its parent**, so every walk of a tree ends. -/
theorem Node.sizeOf_lt_of_mem_children {n c : Node} (h : c ∈ n.children) : sizeOf c < sizeOf n := by
  have key : ∀ {m k : Nat}, Below m n.children → m < k → sizeOf c < k := fun hm hk => by
    have := hm c h
    omega
  cases n with
  | expr e =>
    obtain ⟨span, f⟩ := e
    exact key (ExprForm.children_below f) (by simp; omega)
  | stmt s =>
    obtain ⟨span, f⟩ := s
    exact key (StmtForm.children_below f) (by simp; omega)
  | pattern p =>
    obtain ⟨span, f⟩ := p
    exact key (PatternForm.children_below f) (by simp; omega)
  | parameters ps => exact key (Parameters.children_below ps) (by simp)
  | module m => exact key (below_map (fun _ => rfl) (Nat.le_refl _)) (by cases m; simp; omega)
  | importName a => simp [Node.children] at h
  | keyword k =>
    obtain ⟨span, name, value⟩ := k
    have size : sizeOf (Node.expr value) < sizeOf (Node.keyword (.at span name value)) := by
      simp only [Node.expr.sizeOf_spec, Node.keyword.sizeOf_spec, Keyword.at.sizeOf_spec]
      omega
    refine key ?_ size
    simp only [Node.children, below_cons, below_nil, and_true]
    exact Nat.le_refl _
  | parameter p =>
    obtain ⟨span, name, hint, default⟩ := p
    exact key (below_toList (fun _ => rfl) (Nat.le_refl _)) (by simp; omega)
  | comprehension k =>
    obtain ⟨target, iter, conditions, isAsync⟩ := k
    have size : sizeOf target + sizeOf iter + sizeOf conditions <
        sizeOf (Node.comprehension (.over target iter conditions isAsync)) := by
      simp; omega
    refine key ?_ size
    simp only [Node.children, below_cons]
    have := target.sizeOf_pos
    have := iter.sizeOf_pos
    exact ⟨by simp; omega, by simp; omega, below_map (fun _ => rfl) (by omega)⟩
  | handler k =>
    obtain ⟨span, type, name, body⟩ := k
    have size : sizeOf type + sizeOf body < sizeOf (Node.handler (.at span type name body)) := by
      simp; omega
    refine key ?_ size
    simp only [Node.children, below_append]
    exact ⟨below_toList (fun _ => rfl) (by omega), below_map (fun _ => rfl) (by omega)⟩
  | case k =>
    obtain ⟨p, guard, body⟩ := k
    have size : 1 + sizeOf p + sizeOf guard + sizeOf body < sizeOf (Node.case (.of p guard body)) := by simp
    refine key ?_ size
    simp only [Node.children, below_cons, below_append]
    exact ⟨by simp; omega, below_toList (fun _ => rfl) (by omega),
      below_map (fun _ => rfl) (by omega)⟩
  | withItem k =>
    obtain ⟨context, target⟩ := k
    have size : 1 + sizeOf context + sizeOf target < sizeOf (Node.withItem ⟨context, target⟩) := by simp
    refine key ?_ size
    simp only [Node.children, below_cons]
    exact ⟨by simp, below_toList (fun _ => rfl) (by omega)⟩

/-! ## Walking -/

/-- A node met on a walk, with the nodes from it up to the root of the walk
and the places among the children that lead down to it, the last step first. -/
structure Visit where
  node : Node
  chain : List Node
  path : List Nat

/-- The nodes of a tree depth first, each after its parent. `above` and `path`
say how the walk came to the tree. -/
def Node.visitsFrom (above : List Node) (path : List Nat) (n : Node) : List Visit :=
  ⟨n, n :: above, path⟩ :: n.children.attach.zipIdx.flatMap fun (⟨c, _⟩, i) =>
    c.visitsFrom (n :: above) (i :: path)
termination_by sizeOf n
decreasing_by exact Node.sizeOf_lt_of_mem_children (by assumption)

/-- The nodes of a tree depth first, each after its parent. -/
def Node.visits (n : Node) : List Visit := n.visitsFrom [] []

/-- The size of the largest tree of a list. -/
noncomputable def largest (nodes : List Node) : Nat := nodes.foldr (fun n m => max (sizeOf n) m) 0

theorem largest_le {nodes : List Node} {m : Nat} : largest nodes ≤ m ↔ Below m nodes := by
  induction nodes with
  | nil => simp [largest]
  | cons n nodes ih =>
    rw [below_cons, ← ih]
    simp only [largest, List.foldr_cons]
    omega

theorem Node.sizeOf_pos (n : Node) : 0 < sizeOf n := by
  cases n with | _ p => exact Nat.lt_of_lt_of_le Nat.zero_lt_one (Nat.le_add_right 1 (sizeOf p))

theorem largest_flatMap_children_lt (n : Node) (rest : List Node) :
    largest ((n :: rest).flatMap Node.children) < largest (n :: rest) := by
  have hpos : 0 < largest (n :: rest) := by
    have := n.sizeOf_pos
    simp only [largest, List.foldr_cons]
    omega
  have : largest ((n :: rest).flatMap Node.children) ≤ largest (n :: rest) - 1 := by
    refine largest_le.2 fun c hc => ?_
    obtain ⟨p, hp, hcp⟩ := List.mem_flatMap.1 hc
    have := Node.sizeOf_lt_of_mem_children hcp
    have := largest_le.1 (Nat.le_refl (largest (n :: rest))) p hp
    omega
  omega

/-- The nodes of some trees level by level: all roots, then all children of
roots, and so on. -/
def Node.levels (nodes : List Node) : List Node :=
  match nodes with
  | [] => []
  | n :: rest => n :: (rest ++ Node.levels ((n :: rest).flatMap Node.children))
termination_by largest nodes
decreasing_by exact largest_flatMap_children_lt n rest

/-- The nodes of a tree level by level. -/
def Node.breadthFirst (n : Node) : List Node := Node.levels [n]

/-! ## Names -/

/-- The name and the span of a name expression. Parameters, attributes,
keywords, imports and definitions are not name expressions. -/
def Node.name? : Node → Option (String × Span)
  | .expr (.at span (.name id)) => some (id, span)
  | _ => none

end Reaching.Code
