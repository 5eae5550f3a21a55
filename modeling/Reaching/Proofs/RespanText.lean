/-
Source texts do not show spans.

The writer goes down a tree by its forms alone, so that the text of every part of a tree
with other spans is the text it had (`Code.Write.expr_respan`, `Code.Write.pattern_respan`,
`Code.Write.header_respan`). Conditions on transfers of control and the lines that stand
for statements are such texts (`Code.Expr.text?_respan`, `Code.Stmt.summary_respan`).
-/
import Reaching.Code.Write.Stmt
import Reaching.Proofs.Respan

namespace Reaching.Code

namespace Write

variable {f : Span → Span}

theorem isWhole_respan (e : Expr) : isWhole (e.respan f) = isWhole e := by
  obtain ⟨span, form⟩ := e
  cases form with
  | constant value => cases value <;> rfl
  | _ => rfl

mutual

/-- **The text of an expression does not show spans.** There is one theorem for each function
of the writer, by its own recursion. -/
theorem expr_respan (inHole : Bool) (required : Nat) :
    ∀ e : Expr, expr inHole required (e.respan f) = expr inHole required e
  | .at _ form => exprForm_respan inHole required form

theorem exprForm_respan (inHole : Bool) (required : Nat) :
    ∀ form : ExprForm, exprForm inHole required (form.respan f) = exprForm inHole required form := by
  intro form
  cases form <;>
    simp only [ExprForm.respan, respanExprs_eq, respanExpr?_eq, respanItems_eq, respanClauses_eq,
      respanKeywords_eq, exprForm, expr_respan, exprs_respan, rising_respan, optExpr_respan,
      subscriptText_respan, dictItems_respan, comprehensions_respan, keywordTexts_respan,
      parameters_respan, parts_respan, specText_respan, isWhole_respan, List.isEmpty_map]

theorem exprs_respan (inHole : Bool) (required : Nat) :
    ∀ es : List Expr, exprs inHole required (es.map (Expr.respan f)) = exprs inHole required es
  | [] => rfl
  | e :: rest => by simp only [List.map_cons, exprs, expr_respan, exprs_respan]

theorem rising_respan (inHole : Bool) (strength : Nat) :
    ∀ es : List Expr, rising inHole strength (es.map (Expr.respan f)) = rising inHole strength es
  | [] => rfl
  | e :: rest => by simp only [List.map_cons, rising, expr_respan, rising_respan]

theorem optExpr_respan (inHole : Bool) (required : Nat) (lead : String) :
    ∀ e : Option Expr, optExpr inHole required lead (e.map (Expr.respan f)) = optExpr inHole required lead e
  | none => rfl
  | some e => by simp only [Option.map_some, optExpr, expr_respan]

theorem subscriptText_respan (inHole : Bool) :
    ∀ e : Expr, subscriptText inHole (e.respan f) = subscriptText inHole e
  | .at span form => by
    cases form with
    | tuple elements =>
      cases elements with
      | nil => rfl
      | cons e rest =>
        simp only [Expr.respan, ExprForm.respan, respanExprs_eq, List.map_cons, subscriptText, expr_respan,
          exprs_respan]
    | _ => exact exprForm_respan inHole Strength.test _

theorem dictItems_respan (inHole : Bool) :
    ∀ items : List DictItem, dictItems inHole (items.map (DictItem.respan f)) = dictItems inHole items
  | [] => rfl
  | .pair key value :: rest => by
    simp only [List.map_cons, DictItem.respan, dictItems, expr_respan, dictItems_respan]
  | .spread value :: rest => by
    simp only [List.map_cons, DictItem.respan, dictItems, expr_respan, dictItems_respan]

theorem comprehensions_respan (inHole : Bool) :
    ∀ clauses : List Comprehension,
      comprehensions inHole (clauses.map (Comprehension.respan f)) = comprehensions inHole clauses
  | [] => rfl
  | .over target iter conditions isAsync :: rest => by
    simp only [List.map_cons, Comprehension.respan, respanExprs_eq, comprehensions, expr_respan, exprs_respan,
      comprehensions_respan]

theorem keywordTexts_respan (inHole : Bool) :
    ∀ keywords : List Keyword,
      keywordTexts inHole (keywords.map (Keyword.respan f)) = keywordTexts inHole keywords
  | [] => rfl
  | .at _ name value :: rest => by
    simp only [List.map_cons, Keyword.respan, keywordTexts, expr_respan, keywordTexts_respan]

theorem parameters_respan (inHole : Bool) :
    ∀ ps : Parameters, parameters inHole (ps.respan f) = parameters inHole ps
  | .of positionalOnly regular rest keywordOnly keywords => by
    simp only [Parameters.respan, respanParameters_eq, respanParameter?_eq, parameters, parameterList_respan,
      optParameter_respan, List.isEmpty_map]

theorem parameterList_respan (inHole : Bool) :
    ∀ ps : List Parameter, parameterList inHole (ps.map (Parameter.respan f)) = parameterList inHole ps
  | [] => rfl
  | p :: rest => by simp only [List.map_cons, parameterList, parameter_respan, parameterList_respan]

theorem optParameter_respan (inHole : Bool) (lead : String) :
    ∀ p : Option Parameter, optParameter inHole lead (p.map (Parameter.respan f)) = optParameter inHole lead p
  | none => rfl
  | some p => by simp only [Option.map_some, optParameter, parameter_respan]

theorem parameter_respan (inHole : Bool) (lead : String) :
    ∀ p : Parameter, parameter inHole lead (p.respan f) = parameter inHole lead p
  | .at _ name hint default => by
    simp only [Parameter.respan, respanExpr?_eq, parameter, optExpr_respan]

theorem parts_respan : ∀ es : List Expr, parts (es.map (Expr.respan f)) = parts es
  | [] => rfl
  | .at _ form :: rest => by
    cases form with
    | constant value =>
      cases value <;> simp only [List.map_cons, Expr.respan, ExprForm.respan, parts, parts_respan]
    | formatted value conversion spec =>
      simp only [List.map_cons, Expr.respan, ExprForm.respan, respanExpr?_eq, parts, expr_respan,
        specText_respan, parts_respan]
    | _ => simp only [List.map_cons, Expr.respan, ExprForm.respan, parts]

theorem specText_respan : ∀ spec : Option Expr, specText (spec.map (Expr.respan f)) = specText spec
  | none => rfl
  | some (.at _ form) => by
    cases form with
    | joined values =>
      simp only [Option.map_some, Expr.respan, ExprForm.respan, respanExprs_eq, specText, parts_respan]
    | _ => rfl

end

mutual

/-- **The text of a pattern does not show spans.** -/
theorem pattern_respan (required : Nat) : ∀ p : Pattern, pattern required (p.respan f) = pattern required p
  | .at _ form => patternForm_respan required form

theorem patternForm_respan (required : Nat) :
    ∀ form : PatternForm, patternForm required (form.respan f) = patternForm required form := by
  intro form
  cases form with
  | singleton value => rfl
  | capture pattern name =>
    cases name with
    | none => cases pattern <;> rfl
    | some name =>
      cases pattern with
      | none => rfl
      | some p => simp only [PatternForm.respan, respanPattern?, patternForm, pattern_respan]
  | _ =>
    simp only [PatternForm.respan, respanExprs_eq, respanPatterns_eq, patternForm, expr_respan, exprs_respan,
      patterns_respan]

theorem patterns_respan (required : Nat) :
    ∀ ps : List Pattern, patterns required (ps.map (Pattern.respan f)) = patterns required ps
  | [] => rfl
  | p :: rest => by simp only [List.map_cons, patterns, pattern_respan, patterns_respan]

end

theorem aliasText_respan (a : Alias) : aliasText (a.respan f) = aliasText a := by
  cases a
  rfl

theorem withItemText_respan (i : WithItem) : withItemText (i.respan f) = withItemText i := by
  simp only [withItemText, tail, WithItem.respan, respanExpr?_eq, expr_respan, optExpr_respan]

theorem nodeIsWritable_respan (n : Node) : nodeIsWritable (n.respan f) = nodeIsWritable n := by
  cases n with
  | expr e =>
    obtain ⟨span, form⟩ := e
    cases form with
    | joined values =>
      exact congrArg Option.isSome (expr_respan false Strength.test (.at span (.joined values)))
    | _ => rfl
  | _ => rfl

theorem definitionText_respan (decorators : List Expr) (header : Option String) :
    definitionText (decorators.map (Expr.respan f)) header = definitionText decorators header := by
  cases decorators with
  | nil => rfl
  | cons d rest => simp only [List.map_cons, definitionText, expr_respan]

/-- **The text of a statement up to its block** does not show spans. -/
theorem header_respan (s : Stmt) : header (s.respan f) = header s := by
  obtain ⟨span, form⟩ := s
  cases form with
  | annAssign target hint value bare =>
    have hname : (Node.expr (target.respan f)).name?.isSome = (Node.expr target).name?.isSome := by
      rw [← Node.respan_expr, Node.name?_respan, Option.isSome_map]
    simp only [Stmt.respan, StmtForm.respan, respanExpr?_eq, header, Stmt.form_at, tail, expr_respan,
      optExpr_respan, hname]
  | _ =>
    simp only [Stmt.respan, StmtForm.respan, respanExprs_eq, respanExpr?_eq, respanKeywords_eq, header,
      Stmt.form_at, tail, expr_respan, exprs_respan, optExpr_respan, keywordTexts_respan,
      parameters_respan, definitionText_respan, List.mapM_map, List.map_map, Function.comp_def,
      withItemText_respan, aliasText_respan]

end Write

variable {f : Span → Span}

/-- **The source text** of an expression does not show spans. -/
theorem Expr.text?_respan (e : Expr) : (e.respan f).text? = e.text? := Write.expr_respan _ _ e

theorem Pattern.text?_respan (p : Pattern) : (p.respan f).text? = p.text? := Write.pattern_respan _ p

theorem Stmt.typeName_respan (s : Stmt) : (s.respan f).typeName = s.typeName := by
  obtain ⟨span, form⟩ := s
  cases form with
  | function isAsync => cases isAsync <;> rfl
  | forLoop isAsync => cases isAsync <;> rfl
  | withItems isAsync => cases isAsync <;> rfl
  | tryBlock isGroup => cases isGroup <;> rfl
  | _ => rfl

/-- **The line that stands for a statement** does not show spans. -/
theorem Stmt.summary_respan (s : Stmt) : (s.respan f).summary = s.summary := by
  have hall : (Node.stmt (s.respan f)).breadthFirst.all Write.nodeIsWritable =
      (Node.stmt s).breadthFirst.all Write.nodeIsWritable := by
    rw [← Node.respan_stmt, Node.breadthFirst_respan, List.all_map]
    exact congrArg _ (funext Write.nodeIsWritable_respan)
  simp only [Stmt.summary, Write.header_respan, hall, typeName_respan]

end Reaching.Code
