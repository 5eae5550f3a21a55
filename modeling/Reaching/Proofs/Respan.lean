/-
Trees with other spans.

`respan f` puts `f span` in the place of every span of a tree and leaves all else as it is.
The children of a changed node are the changed children (`Code.Node.children_respan`), so
that both walks meet the changed nodes in the same order, and depth first on the same ways
down (`Code.Node.breadthFirst_respan`, `Code.Node.visits_respan`).
-/
import Reaching.Proofs.Names

namespace Reaching

namespace Code

/-! ## Expressions -/

mutual

/-- An expression with other spans. -/
def Expr.respan (f : Span → Span) : Expr → Expr
  | .at span form => .at (f span) (form.respan f)

def ExprForm.respan (f : Span → Span) : ExprForm → ExprForm
  | .boolean op operands => .boolean op (respanExprs f operands)
  | .named target value => .named (target.respan f) (value.respan f)
  | .binary left op right => .binary (left.respan f) op (right.respan f)
  | .unary op operand => .unary op (operand.respan f)
  | .lambda parameters body => .lambda (parameters.respan f) (body.respan f)
  | .conditional test body orelse => .conditional (test.respan f) (body.respan f) (orelse.respan f)
  | .dict items => .dict (respanItems f items)
  | .set elements => .set (respanExprs f elements)
  | .listComp element clauses => .listComp (element.respan f) (respanClauses f clauses)
  | .setComp element clauses => .setComp (element.respan f) (respanClauses f clauses)
  | .dictComp key value clauses => .dictComp (key.respan f) (value.respan f) (respanClauses f clauses)
  | .generator element clauses => .generator (element.respan f) (respanClauses f clauses)
  | .await value => .await (value.respan f)
  | .yield value => .yield (respanExpr? f value)
  | .yieldFrom value => .yieldFrom (value.respan f)
  | .compare left ops comparators => .compare (left.respan f) ops (respanExprs f comparators)
  | .call callee arguments keywords =>
    .call (callee.respan f) (respanExprs f arguments) (respanKeywords f keywords)
  | .formatted value conversion spec => .formatted (value.respan f) conversion (respanExpr? f spec)
  | .joined parts => .joined (respanExprs f parts)
  | .constant value => .constant value
  | .attribute value member => .attribute (value.respan f) member
  | .subscript value index => .subscript (value.respan f) (index.respan f)
  | .starred value => .starred (value.respan f)
  | .name id => .name id
  | .list elements => .list (respanExprs f elements)
  | .tuple elements => .tuple (respanExprs f elements)
  | .slice lower upper step => .slice (respanExpr? f lower) (respanExpr? f upper) (respanExpr? f step)

def DictItem.respan (f : Span → Span) : DictItem → DictItem
  | .pair key value => .pair (key.respan f) (value.respan f)
  | .spread value => .spread (value.respan f)

def Comprehension.respan (f : Span → Span) : Comprehension → Comprehension
  | .over target iter conditions isAsync =>
    .over (target.respan f) (iter.respan f) (respanExprs f conditions) isAsync

def Keyword.respan (f : Span → Span) : Keyword → Keyword
  | .at span name value => .at (f span) name (value.respan f)

def Parameters.respan (f : Span → Span) : Parameters → Parameters
  | .of positionalOnly regular rest keywordOnly keywords =>
    .of (respanParameters f positionalOnly) (respanParameters f regular) (respanParameter? f rest)
      (respanParameters f keywordOnly) (respanParameter? f keywords)

def Parameter.respan (f : Span → Span) : Parameter → Parameter
  | .at span name hint default => .at (f span) name (respanExpr? f hint) (respanExpr? f default)

def respanExprs (f : Span → Span) : List Expr → List Expr
  | [] => []
  | e :: rest => e.respan f :: respanExprs f rest

def respanExpr? (f : Span → Span) : Option Expr → Option Expr
  | none => none
  | some e => some (e.respan f)

def respanItems (f : Span → Span) : List DictItem → List DictItem
  | [] => []
  | i :: rest => i.respan f :: respanItems f rest

def respanClauses (f : Span → Span) : List Comprehension → List Comprehension
  | [] => []
  | c :: rest => c.respan f :: respanClauses f rest

def respanKeywords (f : Span → Span) : List Keyword → List Keyword
  | [] => []
  | k :: rest => k.respan f :: respanKeywords f rest

def respanParameters (f : Span → Span) : List Parameter → List Parameter
  | [] => []
  | p :: rest => p.respan f :: respanParameters f rest

def respanParameter? (f : Span → Span) : Option Parameter → Option Parameter
  | none => none
  | some p => some (p.respan f)

end

/-! ## Patterns and statements -/

mutual

/-- A pattern with other spans. -/
def Pattern.respan (f : Span → Span) : Pattern → Pattern
  | .at span form => .at (f span) (form.respan f)

def PatternForm.respan (f : Span → Span) : PatternForm → PatternForm
  | .value e => .value (e.respan f)
  | .singleton value => .singleton value
  | .sequence patterns => .sequence (respanPatterns f patterns)
  | .mapping keys patterns rest => .mapping (respanExprs f keys) (respanPatterns f patterns) rest
  | .classOf cls patterns names named =>
    .classOf (cls.respan f) (respanPatterns f patterns) names (respanPatterns f named)
  | .star name => .star name
  | .capture pattern name => .capture (respanPattern? f pattern) name
  | .either patterns => .either (respanPatterns f patterns)

def respanPatterns (f : Span → Span) : List Pattern → List Pattern
  | [] => []
  | p :: rest => p.respan f :: respanPatterns f rest

def respanPattern? (f : Span → Span) : Option Pattern → Option Pattern
  | none => none
  | some p => some (p.respan f)

end

/-- An imported name with another span. -/
def Alias.respan (f : Span → Span) (a : Alias) : Alias := { a with span := f a.span }

/-- An item of a `with` statement with other spans. -/
def WithItem.respan (f : Span → Span) (i : WithItem) : WithItem :=
  ⟨i.context.respan f, respanExpr? f i.target⟩

mutual

/-- A statement with other spans. -/
def Stmt.respan (f : Span → Span) : Stmt → Stmt
  | .at span form => .at (f span) (form.respan f)

def StmtForm.respan (f : Span → Span) : StmtForm → StmtForm
  | .function isAsync name parameters body decorators returns =>
    .function isAsync name (parameters.respan f) (respanStmts f body) (respanExprs f decorators)
      (respanExpr? f returns)
  | .classDef name bases keywords body decorators =>
    .classDef name (respanExprs f bases) (respanKeywords f keywords) (respanStmts f body)
      (respanExprs f decorators)
  | .ret value => .ret (respanExpr? f value)
  | .delete targets => .delete (respanExprs f targets)
  | .assign targets value => .assign (respanExprs f targets) (value.respan f)
  | .augAssign target op value => .augAssign (target.respan f) op (value.respan f)
  | .annAssign target hint value bare =>
    .annAssign (target.respan f) (hint.respan f) (respanExpr? f value) bare
  | .forLoop isAsync target iter body orelse =>
    .forLoop isAsync (target.respan f) (iter.respan f) (respanStmts f body) (respanStmts f orelse)
  | .whileLoop test body orelse =>
    .whileLoop (test.respan f) (respanStmts f body) (respanStmts f orelse)
  | .ifElse test body orelse => .ifElse (test.respan f) (respanStmts f body) (respanStmts f orelse)
  | .withItems isAsync items body =>
    .withItems isAsync (items.map (WithItem.respan f)) (respanStmts f body)
  | .matchCases subject cases => .matchCases (subject.respan f) (respanCases f cases)
  | .raising error cause => .raising (respanExpr? f error) (respanExpr? f cause)
  | .tryBlock isGroup body handlers orelse finalbody =>
    .tryBlock isGroup (respanStmts f body) (respanHandlers f handlers) (respanStmts f orelse)
      (respanStmts f finalbody)
  | .assertion test message => .assertion (test.respan f) (respanExpr? f message)
  | .importNames names => .importNames (names.map (Alias.respan f))
  | .importFrom module names level => .importFrom module (names.map (Alias.respan f)) level
  | .globalNames names => .globalNames names
  | .nonlocalNames names => .nonlocalNames names
  | .expr value => .expr (value.respan f)
  | .pass => .pass
  | .breakLoop => .breakLoop
  | .continueLoop => .continueLoop

def Handler.respan (f : Span → Span) : Handler → Handler
  | .at span type name body => .at (f span) (respanExpr? f type) name (respanStmts f body)

def Case.respan (f : Span → Span) : Case → Case
  | .of pattern guard body => .of (pattern.respan f) (respanExpr? f guard) (respanStmts f body)

def respanStmts (f : Span → Span) : List Stmt → List Stmt
  | [] => []
  | s :: rest => s.respan f :: respanStmts f rest

def respanHandlers (f : Span → Span) : List Handler → List Handler
  | [] => []
  | h :: rest => h.respan f :: respanHandlers f rest

def respanCases (f : Span → Span) : List Case → List Case
  | [] => []
  | c :: rest => c.respan f :: respanCases f rest

end

/-- A module with other spans. -/
def Module.respan (f : Span → Span) (m : Module) : Module := ⟨respanStmts f m.body⟩

/-- A node with other spans. -/
def Node.respan (f : Span → Span) : Node → Node
  | .module m => .module (m.respan f)
  | .stmt s => .stmt (s.respan f)
  | .expr e => .expr (e.respan f)
  | .pattern p => .pattern (p.respan f)
  | .keyword k => .keyword (k.respan f)
  | .comprehension c => .comprehension (c.respan f)
  | .parameters ps => .parameters (ps.respan f)
  | .parameter p => .parameter (p.respan f)
  | .handler h => .handler (h.respan f)
  | .case c => .case (c.respan f)
  | .withItem i => .withItem (i.respan f)
  | .importName a => .importName (a.respan f)

/-! ## Lists and options -/

/-- A function that takes a list item by item maps the list. -/
theorem eq_map_of_cons {α β : Type} {g : List α → List β} {h : α → β} (hnil : g [] = [])
    (hcons : ∀ a as, g (a :: as) = h a :: g as) (as : List α) : g as = as.map h := by
  induction as with
  | nil => exact hnil
  | cons a as ih => rw [hcons, ih, List.map_cons]

section Lists

variable {f : Span → Span}

@[simp] theorem respanExprs_eq (es : List Expr) : respanExprs f es = es.map (Expr.respan f) :=
  eq_map_of_cons rfl (fun _ _ => rfl) es

@[simp] theorem respanItems_eq (is : List DictItem) : respanItems f is = is.map (DictItem.respan f) :=
  eq_map_of_cons rfl (fun _ _ => rfl) is

@[simp] theorem respanClauses_eq (cs : List Comprehension) :
    respanClauses f cs = cs.map (Comprehension.respan f) :=
  eq_map_of_cons rfl (fun _ _ => rfl) cs

@[simp] theorem respanKeywords_eq (ks : List Keyword) : respanKeywords f ks = ks.map (Keyword.respan f) :=
  eq_map_of_cons rfl (fun _ _ => rfl) ks

@[simp] theorem respanParameters_eq (ps : List Parameter) :
    respanParameters f ps = ps.map (Parameter.respan f) :=
  eq_map_of_cons rfl (fun _ _ => rfl) ps

@[simp] theorem respanPatterns_eq (ps : List Pattern) : respanPatterns f ps = ps.map (Pattern.respan f) :=
  eq_map_of_cons rfl (fun _ _ => rfl) ps

@[simp] theorem respanStmts_eq (ss : List Stmt) : respanStmts f ss = ss.map (Stmt.respan f) :=
  eq_map_of_cons rfl (fun _ _ => rfl) ss

@[simp] theorem respanHandlers_eq (hs : List Handler) : respanHandlers f hs = hs.map (Handler.respan f) :=
  eq_map_of_cons rfl (fun _ _ => rfl) hs

@[simp] theorem respanCases_eq (cs : List Case) : respanCases f cs = cs.map (Case.respan f) :=
  eq_map_of_cons rfl (fun _ _ => rfl) cs

@[simp] theorem respanExpr?_eq (e : Option Expr) : respanExpr? f e = e.map (Expr.respan f) := by
  cases e <;> rfl

@[simp] theorem respanParameter?_eq (p : Option Parameter) :
    respanParameter? f p = p.map (Parameter.respan f) := by
  cases p <;> rfl

@[simp] theorem respanPattern?_eq (p : Option Pattern) : respanPattern? f p = p.map (Pattern.respan f) := by
  cases p <;> rfl

end Lists

/-! ## Parts -/

section Parts

variable {f : Span → Span}

theorem Expr.span_respan (e : Expr) : (e.respan f).span = f e.span := by
  cases e
  rfl

theorem Stmt.span_respan (s : Stmt) : (s.respan f).span = f s.span := by
  cases s
  rfl

theorem Stmt.form_respan (s : Stmt) : (s.respan f).form = s.form.respan f := by
  cases s
  rfl

theorem Pattern.span_respan (p : Pattern) : (p.respan f).span = f p.span := by
  cases p
  rfl

theorem Keyword.name_respan (w : Keyword) : (w.respan f).name = w.name := by
  cases w
  rfl

theorem Parameters.inOrder_respan (ps : Parameters) :
    (ps.respan f).inOrder = ps.inOrder.map (Parameter.respan f) := by
  cases ps
  simp [Parameters.respan, Parameters.inOrder, Option.toList_map]

theorem Node.respan_stmt (s : Stmt) : (Node.stmt s).respan f = .stmt (s.respan f) := rfl

theorem Node.respan_expr (e : Expr) : (Node.expr e).respan f = .expr (e.respan f) := rfl

end Parts

/-! ## Children -/

section Children

variable {f : Span → Span}

theorem DictItem.key?_respan (i : DictItem) : (i.respan f).key? = i.key?.map (Expr.respan f) := by
  cases i <;> rfl

theorem DictItem.value_respan (i : DictItem) : (i.respan f).value = i.value.respan f := by
  cases i <;> rfl

theorem Parameter.default_respan (p : Parameter) :
    (p.respan f).default = p.default.map (Expr.respan f) := by
  cases p
  simp [Parameter.respan, Parameter.default]

/-- What is taken from changed things is changed. -/
theorem filterMap_respan {α : Type} {g : α → Option Expr} {h : α → α}
    (hgh : ∀ a, g (h a) = (g a).map (Expr.respan f)) (as : List α) :
    (as.map h).filterMap g = (as.filterMap g).map (Expr.respan f) := by
  rw [List.filterMap_map, List.map_filterMap]
  exact List.filterMap_congr fun a _ => hgh a

theorem ExprForm.children_respan (form : ExprForm) :
    (form.respan f).children = form.children.map (Node.respan f) := by
  cases form <;>
    simp [ExprForm.respan, ExprForm.children, Node.respan, Function.comp_def, Option.toList_map,
      filterMap_respan DictItem.key?_respan, DictItem.value_respan]

theorem Parameters.children_respan (ps : Parameters) :
    (ps.respan f).children = ps.children.map (Node.respan f) := by
  cases ps
  simp [Parameters.respan, Parameters.children, Node.respan, Function.comp_def, Option.toList_map,
    filterMap_respan Parameter.default_respan]

theorem PatternForm.children_respan (form : PatternForm) :
    (form.respan f).children = form.children.map (Node.respan f) := by
  cases form <;>
    simp [PatternForm.respan, PatternForm.children, Node.respan, Function.comp_def, Option.toList_map]

theorem StmtForm.children_respan (form : StmtForm) :
    (form.respan f).children = form.children.map (Node.respan f) := by
  cases form <;>
    simp [StmtForm.respan, StmtForm.children, Node.respan, Function.comp_def, Option.toList_map]

/-- **The children of a changed node** are the changed children. -/
theorem Node.children_respan (n : Node) : (n.respan f).children = n.children.map (Node.respan f) := by
  cases n with
  | module m => simp [Node.respan, Node.children, Module.respan, Function.comp_def]
  | stmt s =>
    obtain ⟨span, form⟩ := s
    exact form.children_respan
  | expr e =>
    obtain ⟨span, form⟩ := e
    exact form.children_respan
  | pattern p =>
    obtain ⟨span, form⟩ := p
    exact form.children_respan
  | parameters ps => exact ps.children_respan
  | keyword k =>
    cases k
    rfl
  | comprehension c =>
    cases c
    simp [Node.respan, Node.children, Comprehension.respan, Function.comp_def]
  | parameter p =>
    cases p
    simp [Node.respan, Node.children, Parameter.respan, Function.comp_def, Option.toList_map]
  | handler h =>
    cases h
    simp [Node.respan, Node.children, Handler.respan, Function.comp_def, Option.toList_map]
  | case c =>
    cases c
    simp [Node.respan, Node.children, Case.respan, Function.comp_def, Option.toList_map]
  | withItem i => simp [Node.respan, Node.children, WithItem.respan, Function.comp_def, Option.toList_map]
  | importName a => rfl

end Children

/-! ## Walks -/

section Walks

variable {f : Span → Span}

theorem Node.levels_respan (nodes : List Node) :
    levels (nodes.map (respan f)) = (levels nodes).map (respan f) := by
  match nodes with
  | [] => simp [levels]
  | n :: rest =>
    have hchildren : ((n :: rest).map (respan f)).flatMap children =
        ((n :: rest).flatMap children).map (respan f) := by
      rw [List.flatMap_map, List.map_flatMap]
      exact List.flatMap_congr fun m _ => m.children_respan
    rw [levels_eq, levels_eq (n :: rest), hchildren, levels_respan, List.map_append]
termination_by largest nodes
decreasing_by exact largest_flatMap_children_lt n rest

/-- **Level by level** a changed tree has the changed nodes. -/
theorem Node.breadthFirst_respan (n : Node) :
    (n.respan f).breadthFirst = n.breadthFirst.map (respan f) :=
  levels_respan [n]

/-- A visit of a changed node. -/
def Visit.respan (f : Span → Span) (v : Visit) : Visit :=
  ⟨v.node.respan f, v.chain.map (Node.respan f), v.path⟩

theorem Node.visitsFrom_eq (above : List Node) (path : List Nat) (n : Node) :
    n.visitsFrom above path = ⟨n, n :: above, path⟩ :: n.children.zipIdx.flatMap fun (c, i) =>
      c.visitsFrom (n :: above) (i :: path) := by
  rw [visitsFrom]
  conv => rhs; rw [← List.attach_map_subtype_val n.children]
  rw [List.zipIdx_map, List.flatMap_map]
  rfl

theorem Node.visitsFrom_respan (above : List Node) (path : List Nat) (n : Node) :
    (n.respan f).visitsFrom (above.map (respan f)) path = (n.visitsFrom above path).map (Visit.respan f) := by
  have hchildren : ∀ c i, (c, i) ∈ n.children.zipIdx →
      (c.respan f).visitsFrom ((n :: above).map (respan f)) (i :: path) =
        (c.visitsFrom (n :: above) (i :: path)).map (Visit.respan f) :=
    fun c i h => visitsFrom_respan (n :: above) (i :: path) c
  rw [visitsFrom_eq, visitsFrom_eq, children_respan, List.zipIdx_map, List.flatMap_map, List.map_cons,
    List.map_flatMap]
  congr 1
  exact List.flatMap_congr fun ⟨c, i⟩ h => hchildren c i h
termination_by sizeOf n
decreasing_by exact sizeOf_lt_of_mem_children (List.fst_mem_of_mem_zipIdx h)

/-- **Depth first** a changed tree has the changed nodes, on the same ways down. -/
theorem Node.visits_respan (n : Node) : (n.respan f).visits = n.visits.map (Visit.respan f) :=
  visitsFrom_respan [] [] n

/-- A changed name expression has the same name. -/
theorem Node.name?_respan (n : Node) :
    (n.respan f).name? = n.name?.map (Prod.map id f) := by
  cases n with
  | expr e =>
    obtain ⟨span, form⟩ := e
    cases form <;> rfl
  | _ => rfl

end Walks

end Code

end Reaching
