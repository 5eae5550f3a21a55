/-
Expressions of Python source, each with the span it was read from.

An expression is a span and a form. Operators and the reading or binding role
of a name are part of the form and not trees of their own.
-/
import Reaching.Span
import Reaching.Decimal.Binary64
import Reaching.Text.CodePoint

namespace Reaching.Code

/-- The value of a literal. `marked` texts were written with the prefix `u`. -/
inductive Literal where
  | nothing
  | truth (value : Bool)
  | ellipsis
  | int (value : Nat)
  | float (value : Binary64)
  | imaginary (value : Binary64)
  | text (value : Text) (marked : Bool)
  | bytes (value : List UInt8)
  deriving DecidableEq, Repr, Inhabited

inductive BoolOp where
  | and | or
  deriving DecidableEq, Repr

inductive BinaryOp where
  | add | sub | mult | matMult | div | modulo | power | shiftLeft | shiftRight
  | bitOr | bitXor | bitAnd | floorDiv
  deriving DecidableEq, Repr

inductive UnaryOp where
  | invert | not | plus | minus
  deriving DecidableEq, Repr

inductive CompareOp where
  | eq | notEq | lt | le | gt | ge | is | isNot | isIn | notIn
  deriving DecidableEq, Repr

/-- How the value in the braces of a formatted text is turned into text. -/
inductive Conversion where
  | str | repr | ascii
  deriving DecidableEq, Repr

mutual

/-- An expression. -/
inductive Expr where
  | at (span : Span) (form : ExprForm)

/-- What an expression is. -/
inductive ExprForm where
  | boolean (op : BoolOp) (operands : List Expr)
  | named (target value : Expr)
  | binary (left : Expr) (op : BinaryOp) (right : Expr)
  | unary (op : UnaryOp) (operand : Expr)
  | lambda (parameters : Parameters) (body : Expr)
  | conditional (test body orelse : Expr)
  | dict (items : List DictItem)
  | set (elements : List Expr)
  | listComp (element : Expr) (clauses : List Comprehension)
  | setComp (element : Expr) (clauses : List Comprehension)
  | dictComp (key value : Expr) (clauses : List Comprehension)
  | generator (element : Expr) (clauses : List Comprehension)
  | await (value : Expr)
  | yield (value : Option Expr)
  | yieldFrom (value : Expr)
  | compare (left : Expr) (ops : List CompareOp) (comparators : List Expr)
  | call (callee : Expr) (arguments : List Expr) (keywords : List Keyword)
  | formatted (value : Expr) (conversion : Option Conversion) (spec : Option Expr)
  | joined (parts : List Expr)
  | constant (value : Literal)
  | attribute (value : Expr) (member : String)
  | subscript (value index : Expr)
  | starred (value : Expr)
  | name (id : String)
  | list (elements : List Expr)
  | tuple (elements : List Expr)
  | slice (lower upper step : Option Expr)

/-- An item of a dictionary display: a pair, or another mapping spread out. -/
inductive DictItem where
  | pair (key value : Expr)
  | spread (value : Expr)

/-- A `for` clause of a comprehension with its conditions. -/
inductive Comprehension where
  | over (target iter : Expr) (conditions : List Expr) (isAsync : Bool)

/-- A keyword argument; one without a name spreads a mapping. -/
inductive Keyword where
  | at (span : Span) (name : Option String) (value : Expr)

/-- The parameters of a function, by the way in which they take arguments. -/
inductive Parameters where
  | of (positionalOnly regular : List Parameter) (rest : Option Parameter)
      (keywordOnly : List Parameter) (keywords : Option Parameter)

/-- A parameter. Its span runs over the name and the type hint. -/
inductive Parameter where
  | at (span : Span) (name : String) (hint default : Option Expr)

end

instance : Inhabited Expr := ⟨.at Span.unknown (.constant .nothing)⟩

/-- The span of an expression. -/
def Expr.span : Expr → Span
  | .at span _ => span

/-- What an expression is, without its span. -/
def Expr.form : Expr → ExprForm
  | .at _ form => form

@[simp] theorem Expr.span_at (span : Span) (form : ExprForm) : (Expr.at span form).span = span := rfl

@[simp] theorem Expr.form_at (span : Span) (form : ExprForm) : (Expr.at span form).form = form := rfl

/-- The name of a keyword argument. -/
def Keyword.name : Keyword → Option String
  | .at _ name _ => name

/-- The value of a keyword argument. -/
def Keyword.value : Keyword → Expr
  | .at _ _ value => value

def Parameter.span : Parameter → Span
  | .at span _ _ _ => span

def Parameter.name : Parameter → String
  | .at _ name _ _ => name

def Parameter.hint : Parameter → Option Expr
  | .at _ _ hint _ => hint

def Parameter.default : Parameter → Option Expr
  | .at _ _ _ default => default

/-- No parameters. -/
def Parameters.none : Parameters := .of [] [] .none [] .none

/-- All parameters in the order of the signature. -/
def Parameters.inOrder : Parameters → List Parameter
  | .of positionalOnly regular rest keywordOnly keywords =>
    positionalOnly ++ regular ++ rest.toList ++ keywordOnly ++ keywords.toList

end Reaching.Code
