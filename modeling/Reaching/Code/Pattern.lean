/-
Patterns of `case` blocks.
-/
import Reaching.Code.Expr

namespace Reaching.Code

/-- The values that a pattern compares by identity. -/
inductive Singleton where
  | none | true | false
  deriving DecidableEq, Repr

mutual

/-- A pattern with its span. -/
inductive Pattern where
  | at (span : Span) (form : PatternForm)

/-- What a pattern is. A star or a capture without a name matches anything. -/
inductive PatternForm where
  | value (value : Expr)
  | singleton (value : Singleton)
  | sequence (patterns : List Pattern)
  | mapping (keys : List Expr) (patterns : List Pattern) (rest : Option String)
  | classOf (cls : Expr) (patterns : List Pattern) (names : List String) (named : List Pattern)
  | star (name : Option String)
  | capture (pattern : Option Pattern) (name : Option String)
  | either (patterns : List Pattern)

end

instance : Inhabited Pattern := ⟨.at Span.unknown (.star none)⟩

/-- The span of a pattern. -/
def Pattern.span : Pattern → Span
  | .at span _ => span

/-- What a pattern is, without its span. -/
def Pattern.form : Pattern → PatternForm
  | .at _ form => form

end Reaching.Code
