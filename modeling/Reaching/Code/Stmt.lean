/-
Statements of Python source, each with the span it was read from.
-/
import Reaching.Code.Pattern

namespace Reaching.Code

/-- A name taken over by an import, with the name it is bound to. -/
structure Alias where
  span : Span
  name : String
  bound : Option String
  deriving DecidableEq, Repr

/-- An item of a `with` statement. -/
structure WithItem where
  context : Expr
  target : Option Expr

mutual

/-- A statement. -/
inductive Stmt where
  | at (span : Span) (form : StmtForm)

/-- What a statement is. -/
inductive StmtForm where
  | function (isAsync : Bool) (name : String) (parameters : Parameters) (body : List Stmt)
      (decorators : List Expr) (returns : Option Expr)
  | classDef (name : String) (bases : List Expr) (keywords : List Keyword) (body : List Stmt)
      (decorators : List Expr)
  | ret (value : Option Expr)
  | delete (targets : List Expr)
  | assign (targets : List Expr) (value : Expr)
  | augAssign (target : Expr) (op : BinaryOp) (value : Expr)
  | annAssign (target hint : Expr) (value : Option Expr) (bare : Bool)
  | forLoop (isAsync : Bool) (target iter : Expr) (body orelse : List Stmt)
  | whileLoop (test : Expr) (body orelse : List Stmt)
  | ifElse (test : Expr) (body orelse : List Stmt)
  | withItems (isAsync : Bool) (items : List WithItem) (body : List Stmt)
  | matchCases (subject : Expr) (cases : List Case)
  | raising (error cause : Option Expr)
  | tryBlock (isGroup : Bool) (body : List Stmt) (handlers : List Handler)
      (orelse finalbody : List Stmt)
  | assertion (test : Expr) (message : Option Expr)
  | importNames (names : List Alias)
  | importFrom (module : Option String) (names : List Alias) (level : Nat)
  | globalNames (names : List String)
  | nonlocalNames (names : List String)
  | expr (value : Expr)
  | pass
  | breakLoop
  | continueLoop

/-- An `except` block. -/
inductive Handler where
  | at (span : Span) (type : Option Expr) (name : Option String) (body : List Stmt)

/-- A `case` block. -/
inductive Case where
  | of (pattern : Pattern) (guard : Option Expr) (body : List Stmt)

end

instance : Inhabited Stmt := ⟨.at Span.unknown .pass⟩

/-- The span of a statement. A decorated definition starts at its keyword. -/
def Stmt.span : Stmt → Span
  | .at span _ => span

/-- What a statement is, without its span. -/
def Stmt.form : Stmt → StmtForm
  | .at _ form => form

@[simp] theorem Stmt.span_at (span : Span) (form : StmtForm) : (Stmt.at span form).span = span := rfl

@[simp] theorem Stmt.form_at (span : Span) (form : StmtForm) : (Stmt.at span form).form = form := rfl

/-- The name of a statement's kind. -/
def Stmt.typeName (s : Stmt) : String :=
  match s.form with
  | .function false .. => "FunctionDef"
  | .function true .. => "AsyncFunctionDef"
  | .classDef .. => "ClassDef"
  | .ret .. => "Return"
  | .delete .. => "Delete"
  | .assign .. => "Assign"
  | .augAssign .. => "AugAssign"
  | .annAssign .. => "AnnAssign"
  | .forLoop false .. => "For"
  | .forLoop true .. => "AsyncFor"
  | .whileLoop .. => "While"
  | .ifElse .. => "If"
  | .withItems false .. => "With"
  | .withItems true .. => "AsyncWith"
  | .matchCases .. => "Match"
  | .raising .. => "Raise"
  | .tryBlock false .. => "Try"
  | .tryBlock true .. => "TryStar"
  | .assertion .. => "Assert"
  | .importNames .. => "Import"
  | .importFrom .. => "ImportFrom"
  | .globalNames .. => "Global"
  | .nonlocalNames .. => "Nonlocal"
  | .expr .. => "Expr"
  | .pass => "Pass"
  | .breakLoop => "Break"
  | .continueLoop => "Continue"

/-- A module: its top-level statements. -/
structure Module where
  body : List Stmt

end Reaching.Code
