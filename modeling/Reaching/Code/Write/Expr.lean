/-
The source text of expressions and patterns.

A text is written with the fewest brackets that the strength of operators
needs: the place where an expression stands requires a strength, and a weaker
expression takes brackets there. Text inside the holes of a formatted text
cannot hold a backslash; an expression that would need one there has no source
text.
-/
import Reaching.Code.Pattern
import Reaching.Decimal.Shortest
import Reaching.Code.Write.Format

namespace Reaching.Code

namespace Strength

/-! ## Strengths, weakest first -/

def named : Nat := 0
def tuple : Nat := 1
def yield : Nat := 2
def test : Nat := 3
def or : Nat := 4
def and : Nat := 5
def not : Nat := 6
def compare : Nat := 7
def bitOr : Nat := 8
def bitXor : Nat := 9
def bitAnd : Nat := 10
def shift : Nat := 11
def sum : Nat := 12
def term : Nat := 13
def sign : Nat := 14
def power : Nat := 15
def await : Nat := 16
def atom : Nat := 17

end Strength

def BoolOp.word : BoolOp → String
  | .and => "and"
  | .or => "or"

def BoolOp.strength : BoolOp → Nat
  | .and => Strength.and
  | .or => Strength.or

def BinaryOp.symbol : BinaryOp → String
  | .add => "+"
  | .sub => "-"
  | .mult => "*"
  | .matMult => "@"
  | .div => "/"
  | .modulo => "%"
  | .power => "**"
  | .shiftLeft => "<<"
  | .shiftRight => ">>"
  | .bitOr => "|"
  | .bitXor => "^"
  | .bitAnd => "&"
  | .floorDiv => "//"

def BinaryOp.strength : BinaryOp → Nat
  | .add | .sub => Strength.sum
  | .mult | .matMult | .div | .modulo | .floorDiv => Strength.term
  | .power => Strength.power
  | .shiftLeft | .shiftRight => Strength.shift
  | .bitOr => Strength.bitOr
  | .bitXor => Strength.bitXor
  | .bitAnd => Strength.bitAnd

/-- The strengths that the operands of an operator require. Powers group to the
right, all others to the left. -/
def BinaryOp.sides (op : BinaryOp) : Nat × Nat :=
  if op = .power then (op.strength + 1, op.strength) else (op.strength, op.strength + 1)

/-- A sign with what separates it from its operand. -/
def UnaryOp.symbol : UnaryOp → String
  | .invert => "~"
  | .not => "not "
  | .plus => "+"
  | .minus => "-"

def UnaryOp.strength : UnaryOp → Nat
  | .not => Strength.not
  | _ => Strength.sign

def CompareOp.symbol : CompareOp → String
  | .eq => "=="
  | .notEq => "!="
  | .lt => "<"
  | .le => "<="
  | .gt => ">"
  | .ge => ">="
  | .is => "is"
  | .isNot => "is not"
  | .isIn => "in"
  | .notIn => "not in"

def Conversion.mark : Conversion → String
  | .str => "!s"
  | .repr => "!r"
  | .ascii => "!a"

namespace Write

/-- Numbers in source text: infinity is written as a number too large. -/
def floatForm : Decimal.Form := ⟨".0", "1e309", "(1e309-1e309)"⟩

/-- Imaginary numbers, without the mark. -/
def imaginaryForm : Decimal.Form := ⟨"", "1e309", "(1e309-1e309)"⟩

/-- A literal; `inHole` says that it stands where no backslash may. -/
def literal (inHole : Bool) : Literal → String
  | .nothing => "None"
  | .truth b => if b then "True" else "False"
  | .ellipsis => "..."
  | .int n => toString n
  | .float x => Decimal.text floatForm x
  | .imaginary x => Decimal.text imaginaryForm x ++ "j"
  | .text s marked =>
    (if marked then "u" else "") ++ (if inHole then quotedPlainly s else Text.quoted s)
  | .bytes bs => Text.quotedBytes bs

/-- The most digits that an integer is written with. -/
def maxIntDigits : Nat := 4300

/-- Whether a literal can be written. -/
def isWritable : Literal → Bool
  | .int n => n < Nat.pow 10 maxIntDigits
  | _ => true

/-- A text in brackets where its strength is less than required. -/
def bracketIf (condition : Bool) (text : String) : String :=
  if condition then "(" ++ text ++ ")" else text

/-- Items with commas; a single one keeps a comma after it. -/
def commas : List String → String
  | [item] => item ++ ","
  | items => ", ".intercalate items

/-- Whether a point after an expression would read as part of a number. -/
def isWhole : Expr → Bool
  | .at _ (.constant (.int _)) => true
  | .at _ (.constant (.truth _)) => true
  | _ => false

/-- A hole with its braces, by the texts of its expression and its format. -/
def hole (value : String) (conversion : Option Conversion) (spec : Text) : Option Text :=
  if value.contains '\\' then none
  else
    let front := "\x7b" ++ (if value.startsWith "\x7b" then " " else "") ++ value
      ++ ((conversion.map Conversion.mark).getD "")
    some (Text.ofString front ++ spec ++ Text.ofString "\x7d")

mutual

/-- The text of an expression where a strength is required. -/
def expr (inHole : Bool) (required : Nat) : Expr → Option String
  | .at _ form => exprForm inHole required form

def exprForm (inHole : Bool) (required : Nat) : ExprForm → Option String
  | .boolean op operands => do
    let texts ← rising inHole op.strength operands
    some (bracketIf (op.strength < required) ((" " ++ op.word ++ " ").intercalate texts))
  | .named target value => do
    let t ← expr inHole Strength.atom target
    let v ← expr inHole Strength.atom value
    some (bracketIf (Strength.named < required) (t ++ " := " ++ v))
  | .binary left op right => do
    let l ← expr inHole op.sides.1 left
    let r ← expr inHole op.sides.2 right
    some (bracketIf (op.strength < required) (l ++ " " ++ op.symbol ++ " " ++ r))
  | .unary op operand => do
    let t ← expr inHole op.strength operand
    some (bracketIf (op.strength < required) (op.symbol ++ t))
  | .lambda ps body => do
    let p ← parameters inHole ps
    let b ← expr inHole Strength.test body
    some (bracketIf (Strength.test < required)
      ("lambda" ++ (if p.isEmpty then "" else " " ++ p) ++ ": " ++ b))
  | .conditional test body orelse => do
    let b ← expr inHole (Strength.test + 1) body
    let t ← expr inHole (Strength.test + 1) test
    let o ← expr inHole Strength.test orelse
    some (bracketIf (Strength.test < required) (b ++ " if " ++ t ++ " else " ++ o))
  | .dict items => do
    let texts ← dictItems inHole items
    some ("\x7b" ++ ", ".intercalate texts ++ "\x7d")
  | .set elements => do
    if elements.isEmpty then some "\x7b*()\x7d"
    else
      let texts ← exprs inHole Strength.test elements
      some ("\x7b" ++ ", ".intercalate texts ++ "\x7d")
  | .listComp element clauses => do
    let e ← expr inHole Strength.test element
    let c ← comprehensions inHole clauses
    some ("[" ++ e ++ c ++ "]")
  | .setComp element clauses => do
    let e ← expr inHole Strength.test element
    let c ← comprehensions inHole clauses
    some ("\x7b" ++ e ++ c ++ "\x7d")
  | .dictComp key value clauses => do
    let k ← expr inHole Strength.test key
    let v ← expr inHole Strength.test value
    let c ← comprehensions inHole clauses
    some ("\x7b" ++ k ++ ": " ++ v ++ c ++ "\x7d")
  | .generator element clauses => do
    let e ← expr inHole Strength.test element
    let c ← comprehensions inHole clauses
    some ("(" ++ e ++ c ++ ")")
  | .await value => do
    let v ← expr inHole Strength.atom value
    some (bracketIf (Strength.await < required) ("await " ++ v))
  | .yield value => do
    let v ← optExpr inHole Strength.atom " " value
    some (bracketIf (Strength.yield < required) ("yield" ++ v))
  | .yieldFrom value => do
    let v ← expr inHole Strength.atom value
    some (bracketIf (Strength.yield < required) ("yield from " ++ v))
  | .compare left ops comparators => do
    let l ← expr inHole (Strength.compare + 1) left
    let texts ← exprs inHole (Strength.compare + 1) comparators
    let pairs := (ops.zip texts).map fun (op, t) => " " ++ op.symbol ++ " " ++ t
    some (bracketIf (Strength.compare < required) (l ++ String.join pairs))
  | .call callee arguments keywords => do
    let c ← expr inHole Strength.atom callee
    let args ← exprs inHole Strength.test arguments
    let named ← keywordTexts inHole keywords
    some (c ++ "(" ++ ", ".intercalate (args ++ named) ++ ")")
  | .formatted value conversion spec => do
    let v ← expr true (Strength.test + 1) value
    let s ← specText spec
    let text ← hole v conversion s
    some ("f" ++ quotedPlainly text)
  | .joined values => do
    let texts ← parts values
    if inHole then some ("f" ++ quotedPlainly (texts.flatMap (·.1)))
    else
      let (body, quotes) := joinParts allQuotes texts
      some ("f" ++ enclose quotes body)
  | .constant value => if isWritable value then some (literal inHole value) else none
  | .attribute value member => do
    let v ← expr inHole Strength.atom value
    some (v ++ (if isWhole value then " ." else ".") ++ member)
  | .subscript value index => do
    let v ← expr inHole Strength.atom value
    let i ← subscriptText inHole index
    some (v ++ "[" ++ i ++ "]")
  | .starred value => do
    let v ← expr inHole Strength.bitOr value
    some ("*" ++ v)
  | .name id => some id
  | .list elements => do
    let texts ← exprs inHole Strength.test elements
    some ("[" ++ ", ".intercalate texts ++ "]")
  | .tuple elements => do
    let texts ← exprs inHole Strength.test elements
    some (bracketIf (elements.isEmpty || Strength.tuple < required) (commas texts))
  | .slice lower upper step => do
    let l ← optExpr inHole Strength.test "" lower
    let u ← optExpr inHole Strength.test "" upper
    let s ← optExpr inHole Strength.test ":" step
    some (l ++ ":" ++ u ++ s)

def exprs (inHole : Bool) (required : Nat) : List Expr → Option (List String)
  | [] => some []
  | e :: rest => do
    let t ← expr inHole required e
    let ts ← exprs inHole required rest
    some (t :: ts)

/-- Operands of a logical operator; each requires more than the one before. -/
def rising (inHole : Bool) (strength : Nat) : List Expr → Option (List String)
  | [] => some []
  | e :: rest => do
    let next := min (strength + 1) Strength.atom
    let t ← expr inHole next e
    let ts ← rising inHole next rest
    some (t :: ts)

/-- An expression after a lead, or nothing. -/
def optExpr (inHole : Bool) (required : Nat) (lead : String) : Option Expr → Option String
  | none => some ""
  | some e => do
    let t ← expr inHole required e
    some (lead ++ t)

/-- What stands in the brackets of a subscript. Only an empty tuple keeps its
own brackets there. -/
def subscriptText (inHole : Bool) : Expr → Option String
  | .at _ (.tuple (e :: rest)) => do
    let t ← expr inHole Strength.test e
    let ts ← exprs inHole Strength.test rest
    some (commas (t :: ts))
  | .at _ form => exprForm inHole Strength.test form

def dictItems (inHole : Bool) : List DictItem → Option (List String)
  | [] => some []
  | .pair key value :: rest => do
    let k ← expr inHole Strength.test key
    let v ← expr inHole Strength.test value
    let ts ← dictItems inHole rest
    some ((k ++ ": " ++ v) :: ts)
  | .spread value :: rest => do
    let v ← expr inHole Strength.bitOr value
    let ts ← dictItems inHole rest
    some (("**" ++ v) :: ts)

def comprehensions (inHole : Bool) : List Comprehension → Option String
  | [] => some ""
  | .over target iter conditions isAsync :: rest => do
    let t ← expr inHole Strength.tuple target
    let i ← expr inHole (Strength.test + 1) iter
    let cs ← exprs inHole (Strength.test + 1) conditions
    let more ← comprehensions inHole rest
    some ((if isAsync then " async for " else " for ") ++ t ++ " in " ++ i
      ++ String.join (cs.map (" if " ++ ·)) ++ more)

def keywordTexts (inHole : Bool) : List Keyword → Option (List String)
  | [] => some []
  | .at _ name value :: rest => do
    let v ← expr inHole Strength.test value
    let ts ← keywordTexts inHole rest
    let lead := match name with
      | some id => id ++ "="
      | none => "**"
    some ((lead ++ v) :: ts)

/-- A list of parameters without brackets. -/
def parameters (inHole : Bool) : Parameters → Option String
  | .of positionalOnly regular rest keywordOnly keywords => do
    let ps ← parameterList inHole positionalOnly
    let rs ← parameterList inHole regular
    let r ← optParameter inHole "*" rest
    let ks ← parameterList inHole keywordOnly
    let k ← optParameter inHole "**" keywords
    let slash := if positionalOnly.isEmpty then [] else ["/"]
    let star := if r.isEmpty && !keywordOnly.isEmpty then ["*"] else r
    some (", ".intercalate (ps ++ slash ++ rs ++ star ++ ks ++ k))

def parameterList (inHole : Bool) : List Parameter → Option (List String)
  | [] => some []
  | p :: rest => do
    let t ← parameter inHole "" p
    let ts ← parameterList inHole rest
    some (t :: ts)

def optParameter (inHole : Bool) (lead : String) : Option Parameter → Option (List String)
  | none => some []
  | some p => do
    let t ← parameter inHole lead p
    some [t]

def parameter (inHole : Bool) (lead : String) : Parameter → Option String
  | .at _ name hint default => do
    let a ← optExpr inHole Strength.test ": " hint
    let d ← optExpr inHole Strength.test "=" default
    some (lead ++ name ++ a ++ d)

/-- The parts of a formatted text, with whether each is plain text. -/
def parts : List Expr → Option (List (Text × Bool))
  | [] => some []
  | .at _ (.constant (.text s _)) :: rest => do
    let ts ← parts rest
    some ((doubleBraces s, true) :: ts)
  | .at _ (.formatted value conversion spec) :: rest => do
    let v ← expr true (Strength.test + 1) value
    let s ← specText spec
    let t ← hole v conversion s
    let ts ← parts rest
    some ((t, false) :: ts)
  | _ :: _ => none

/-- The format of a hole after its colon. -/
def specText : Option Expr → Option Text
  | some (.at _ (.joined values)) => do
    let texts ← parts values
    some (':' :: texts.flatMap (·.1))
  | some (.at _ _) => none
  | none => some []

end

/-! ## Patterns -/

mutual

/-- The text of a pattern where a strength is required. -/
def pattern (required : Nat) : Pattern → Option String
  | .at _ form => patternForm required form

def patternForm (required : Nat) : PatternForm → Option String
  | .value e => expr false Strength.test e
  | .singleton .none => some "None"
  | .singleton .true => some "True"
  | .singleton .false => some "False"
  | .sequence items => do
    let texts ← patterns Strength.test items
    some ("[" ++ ", ".intercalate texts ++ "]")
  | .mapping keys values rest => do
    let ks ← exprs false Strength.test keys
    let vs ← patterns Strength.test values
    let pairs := (ks.zip vs).map fun (k, v) => k ++ ": " ++ v
    let tail := rest.toList.map ("**" ++ ·)
    some ("\x7b" ++ ", ".intercalate (pairs ++ tail) ++ "\x7d")
  | .classOf cls positional names named => do
    let c ← expr false Strength.atom cls
    let ps ← patterns Strength.test positional
    let vs ← patterns Strength.test named
    let pairs := (names.zip vs).map fun (k, v) => k ++ "=" ++ v
    some (c ++ "(" ++ ", ".intercalate (ps ++ pairs) ++ ")")
  | .star name => some ("*" ++ name.getD "_")
  | .capture _ none => some "_"
  | .capture none (some name) => some name
  | .capture (some p) (some name) => do
    let t ← pattern Strength.bitOr p
    some (bracketIf (Strength.test < required) (t ++ " as " ++ name))
  | .either alternatives => do
    let texts ← patterns (Strength.bitOr + 1) alternatives
    some (bracketIf (Strength.bitOr < required) (" | ".intercalate texts))

def patterns (required : Nat) : List Pattern → Option (List String)
  | [] => some []
  | p :: rest => do
    let t ← pattern required p
    let ts ← patterns required rest
    some (t :: ts)

end

end Write

/-- The source text of an expression that stands alone. -/
def Expr.text? (e : Expr) : Option String := Write.expr false Strength.test e

/-- The source text of a pattern that stands alone. -/
def Pattern.text? (p : Pattern) : Option String := Write.pattern Strength.test p

end Reaching.Code
