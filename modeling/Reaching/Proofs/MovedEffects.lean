/-
Effects of code that was moved.

Definitions are told apart by name and span, and a move maps different spans to different
ones. So sets of definitions keep the same members in the same order
(`Definitions.union_moved`, `Definitions.sameAs_moved`). What a rule marks is a way down a
tree and no span, names that are read lose their spans, and a declaration counts its lines
from that of its literal: the effect of a moved statement is the moved effect
(`Code.Stmt.effect_moved`).
-/
import Reaching.Proofs.MovedGraph

namespace Reaching

open Code

/-! ## Definitions -/

/-- A reference that is `k` lines further down. -/
def Reference.moved (k : Int) (r : Reference) : Reference := { r with span := r.span.moved k }

/-- A definition that is `k` lines further down, with the statement that owns it. -/
def Definition.moved (k : Int) (d : Definition) : Definition :=
  { d with span := d.span.moved k, owner := d.owner.respan (.moved k) }

section Sets

variable {k : Int}

@[simp] theorem Reference.moved_inj {r s : Reference} : r.moved k = s.moved k ↔ r = s := by
  cases r
  cases s
  simp [Reference.moved]

@[simp] theorem Definition.identity_moved (d : Definition) : (d.moved k).identity = d.identity.moved k := rfl

@[simp] theorem Definition.name_moved (d : Definition) : (d.moved k).name = d.name := rfl

namespace Definitions

theorem has_moved (ds : Definitions) (r : Reference) :
    has (ds.map (Definition.moved k)) (r.moved k) = ds.has r := by
  simp only [has, List.any_map, Function.comp_def, Definition.identity_moved, Reference.moved_inj]

theorem insert_moved (ds : Definitions) (d : Definition) :
    insert (ds.map (Definition.moved k)) (d.moved k) = (ds.insert d).map (Definition.moved k) := by
  simp only [insert, Definition.identity_moved, has_moved]
  split <;> simp

/-- **The union of moved sets** is the moved union. -/
theorem union_moved (ds es : Definitions) :
    union (ds.map (Definition.moved k)) (es.map (Definition.moved k)) =
      (ds.union es).map (Definition.moved k) := by
  simp only [union]
  induction es generalizing ds with
  | nil => rfl
  | cons e rest ih => rw [List.map_cons, List.foldl_cons, insert_moved, ih, List.foldl_cons]

theorem ofList_moved (ds : List Definition) :
    ofList (ds.map (Definition.moved k)) = (ofList ds).map (Definition.moved k) := union_moved [] ds

theorem sameAs_moved (ds es : Definitions) :
    sameAs (ds.map (Definition.moved k)) (es.map (Definition.moved k)) = ds.sameAs es := by
  simp only [sameAs, List.all_map, Function.comp_def, Definition.identity_moved, has_moved]

end Definitions

end Sets

/-! ## Names that calls change -/

section Marks

variable {k : Int} {f : Span → Span}

theorem calleeName?_respan (e : Expr) : calleeName? (e.respan f) = calleeName? e := by
  obtain ⟨span, form⟩ := e
  cases form <;> rfl

theorem hasReceiver_respan (e : Expr) : hasReceiver (e.respan f) = hasReceiver e := by
  obtain ⟨span, form⟩ := e
  cases form <;> rfl

theorem Rule.marks_respan (rule : Rule) (callee : Expr) (arguments : List Expr) (keywords : List Keyword) :
    rule.marks (callee.respan f) (arguments.map (Expr.respan f)) (keywords.map (Keyword.respan f)) =
      rule.marks callee arguments keywords := by
  simp [Rule.marks, hasReceiver_respan, List.zipIdx_map, List.filter_map, Function.comp_def,
    Keyword.name_respan]

theorem Rules.marks_respan (rules : Rules) (callee : Expr) (arguments : List Expr) (keywords : List Keyword) :
    rules.marks (callee.respan f) (arguments.map (Expr.respan f)) (keywords.map (Keyword.respan f)) =
      rules.marks callee arguments keywords := by
  simp only [Rules.marks, calleeName?_respan, Rule.marks_respan]

/-- **What a visit marks** does not depend on spans. -/
theorem Code.Visit.marks_respan (rules : Rules) (v : Visit) : (v.respan f).marks rules = v.marks rules := by
  obtain ⟨node, chain, path⟩ := v
  cases node with
  | expr e =>
    obtain ⟨span, form⟩ := e
    cases form with
    | call callee arguments keywords =>
      simp only [Visit.respan, Node.respan, Expr.respan, ExprForm.respan, respanExprs_eq, respanKeywords_eq,
        Visit.marks, Rules.marks_respan]
    | _ => rfl
  | _ => rfl

theorem markedNames_moved (rules : Rules) (visits : List Visit) :
    ∀ marks, markedNames rules marks (visits.map (Visit.respan (.moved k))) =
      (markedNames rules marks visits).map (Reference.moved k) := by
  induction visits with
  | nil => intro _; rfl
  | cons v rest ih =>
    intro marks
    have hname : (v.respan (.moved k)).node.name? = v.node.name?.map (Prod.map id (Span.moved k)) :=
      v.node.name?_respan
    have hmarked : (v.respan (.moved k)).isMarked marks = v.isMarked marks := rfl
    rw [List.map_cons, markedNames, markedNames, Visit.marks_respan, ih, List.map_append, hname, hmarked]
    cases v.node.name? with
    | none => rfl
    | some found =>
      cases v.isMarked marks <;> rfl

/-- **The definitions that calls make** in a moved statement are the moved ones. -/
theorem mutationDefinitions_moved (rules : Rules) (s : Stmt) :
    mutationDefinitions rules (s.respan (.moved k)) =
      (mutationDefinitions rules s).map (Definition.moved k) := by
  rw [mutationDefinitions, ← Node.respan_stmt, Node.visits_respan, markedNames_moved, mutationDefinitions,
    ← Definitions.ofList_moved, List.map_map, List.map_map]
  rfl

end Marks

/-! ## Declarations -/

section Declarations

variable {k : Int}

theorem Code.Node.literal?_respan (f : Span → Span) (n : Node) :
    (n.respan f).literal? = n.literal?.map (Prod.map id f) := by
  cases n with
  | expr e =>
    obtain ⟨span, form⟩ := e
    cases form with
    | constant value => cases value <;> rfl
    | _ => rfl
  | _ => rfl

/-- **A declaration** moves along with the literal that it stands in. -/
theorem Declaration.ofLiteral_moved (text : Text) (line : Int) (owner : Stmt) :
    ofLiteral text (line + k) (owner.respan (.moved k)) =
      ((ofLiteral text line owner).1.map (Definition.moved k),
        (ofLiteral text line owner).2.map (· + k)) := by
  unfold ofLiteral
  split
  · rfl
  · rfl
  · simp only [List.map_map, List.map_nil, Prod.mk.injEq, and_true]
    refine List.map_congr_left fun d _ => ?_
    simp only [Function.comp_apply, Declared.definition, Definition.moved, Span.moved, Int.add_right_comm]

/-- **The definitions and the discarded lines of the declarations** in a moved statement are
the moved ones. -/
theorem declaredDefinitions_moved (s : Stmt) :
    declaredDefinitions (s.respan (.moved k)) =
      ((declaredDefinitions s).1.map (Definition.moved k), (declaredDefinitions s).2.map (· + k)) := by
  have hliterals : (s.respan (.moved k)).literals = s.literals.map (Prod.map id (Span.moved k)) := by
    rw [Stmt.literals, ← Node.respan_stmt, Node.breadthFirst_respan, List.filterMap_map, Stmt.literals,
      List.map_filterMap]
    exact List.filterMap_congr fun n _ => n.literal?_respan _
  simp only [declaredDefinitions, hliterals, List.map_map, Function.comp_def, Prod.map_fst, Prod.map_snd,
    id_eq, Span.firstLine_moved, Declaration.ofLiteral_moved, List.flatMap_map, ← Definitions.ofList_moved,
    List.map_flatMap]

end Declarations

/-! ## Statements -/

/-- The effect of a statement that is `k` lines further down. -/
def Effect.moved (k : Int) (e : Effect) : Effect :=
  { e with
    span := e.span.moved k
    definitions := e.definitions.map (Definition.moved k)
    discarded := e.discarded.map (· + k) }

section Statements

variable {k : Int}

theorem Code.Node.names_moved (n : Node) : (n.respan (.moved k)).names = n.names.map (Reference.moved k) := by
  rw [names, breadthFirst_respan, List.filterMap_map, names, List.map_filterMap]
  refine List.filterMap_congr fun m _ => ?_
  simp only [Function.comp_apply, name?_respan, Option.map_map]
  rfl

theorem namesUnder_moved (es : List Expr) :
    namesUnder ((es.map (Expr.respan (.moved k))).map .expr) =
      (namesUnder (es.map .expr)).map (Reference.moved k) := by
  simp only [namesUnder, List.flatMap_map, List.map_flatMap]
  exact List.flatMap_congr fun e _ => (Node.expr e).names_moved

theorem Code.StmtForm.targets?_respan (f : Span → Span) (form : StmtForm) :
    (form.respan f).targets? = form.targets?.map (List.map (Expr.respan f)) := by
  cases form with
  | assign targets value => simp [StmtForm.respan, StmtForm.targets?]
  | annAssign target hint value bare => cases value <;> rfl
  | _ => rfl

theorem Code.StmtForm.sources?_respan (f : Span → Span) (form : StmtForm) :
    (form.respan f).sources? = form.sources?.map (List.map (Expr.respan f)) := by
  cases form with
  | annAssign target hint value bare => cases value <;> rfl
  | _ => rfl

theorem Code.StmtForm.introduces?_respan (f : Span → Span) (form : StmtForm) :
    (form.respan f).introduces? = form.introduces? := by
  cases form with
  | function isAsync => cases isAsync <;> rfl
  | _ => rfl

theorem Code.StmtForm.imported_respan (f : Span → Span) (form : StmtForm) :
    (form.respan f).imported = form.imported.map (Prod.map id f) := by
  cases form with
  | importNames names => simp [StmtForm.respan, StmtForm.imported, Alias.respan]
  | importFrom module names level =>
    have hstar : (names.map (Alias.respan f)).any (fun a => a.name = "*") =
        names.any fun a => a.name = "*" := by
      rw [List.any_map]
      rfl
    simp only [StmtForm.respan, StmtForm.imported, hstar]
    cases names.any fun a => a.name = "*" <;> simp [Alias.respan]
  | _ => rfl

/-- **The definitions that a moved statement makes by its kind** are the moved ones. -/
theorem Code.Stmt.ownDefinitions_moved (s : Stmt) :
    (s.respan (.moved k)).ownDefinitions = s.ownDefinitions.map (Definition.moved k) := by
  obtain ⟨span, form⟩ := s
  simp only [ownDefinitions, Stmt.respan, Stmt.form_at, Stmt.span_at, StmtForm.targets?_respan,
    StmtForm.introduces?_respan, StmtForm.imported_respan]
  cases form.targets? with
  | some targets =>
    simp only [Option.map_some, namesUnder_moved]
    rw [List.map_map, List.map_map]
    rfl
  | none =>
    cases form.introduces? with
    | some introduced => rfl
    | none =>
      simp only [Option.map_none, List.map_map]
      rfl

theorem Code.Stmt.definitions_moved (rules : Rules) (s : Stmt) :
    (s.respan (.moved k)).definitions rules = (s.definitions rules).map (Definition.moved k) := by
  rw [definitions, mutationDefinitions_moved, declaredDefinitions_moved, ownDefinitions_moved,
    Definitions.union_moved, Definitions.union_moved, definitions]

theorem Code.Stmt.uses_moved (s : Stmt) : (s.respan (.moved k)).uses = s.uses.map (Reference.moved k) := by
  rw [uses, Stmt.form_respan, StmtForm.sources?_respan, uses]
  cases s.form.sources? with
  | none => exact (Node.stmt s).names_moved
  | some sources => exact namesUnder_moved sources

/-- **The effect of a moved statement is the moved effect.** -/
theorem Code.Stmt.effect_moved (rules : Rules) (s : Stmt) :
    (s.respan (.moved k)).effect rules = (s.effect rules).moved k := by
  simp only [effect, Effect.moved, definitions_moved, uses_moved, declaredDefinitions_moved, Stmt.span_respan,
    Stmt.form_respan, StmtForm.imported_respan, List.map_map]
  rfl

end Statements

end Reaching
