/-
Reading expressions.

Expressions nest, and every reader here takes the reader of the expressions
one level further in as its first argument, `inner`. `expressionAt` ties the
knot for a given depth of nesting.
-/
import Reaching.Code.Read.Basic
import Reaching.Code.Token.Scan

namespace Reaching.Code

/-- The ways in which an expression may be asked for, loosest first. -/
inductive Level where
  | expression | disjunction | inversion | bitOr | factor | primary
  deriving DecidableEq, Repr

mutual

/-- Whether an expression may be assigned to. A star is allowed where
elements of a tuple or a list stand, and not twice. -/
def Expr.isTarget : Expr → Bool
  | .at _ form => form.isTarget

def ExprForm.isTarget : ExprForm → Bool
  | .name _ => true
  | .attribute _ _ => true
  | .subscript _ _ => true
  | .starred value => value.isTarget && !value.isStarred
  | .tuple elements => areTargets elements
  | .list elements => areTargets elements
  | _ => false

def areTargets : List Expr → Bool
  | [] => true
  | e :: rest => e.isTarget && areTargets rest

def Expr.isStarred : Expr → Bool
  | .at _ (.starred _) => true
  | _ => false

end

mutual

/-- Whether an expression may be deleted. -/
def Expr.isDeletable : Expr → Bool
  | .at _ form => form.isDeletable

def ExprForm.isDeletable : ExprForm → Bool
  | .name _ => true
  | .attribute _ _ => true
  | .subscript _ _ => true
  | .tuple elements => areDeletable elements
  | .list elements => areDeletable elements
  | _ => false

def areDeletable : List Expr → Bool
  | [] => true
  | e :: rest => e.isDeletable && areDeletable rest

end

/-- Whether an expression is a name, an attribute or a subscript. -/
def Expr.isSingleTarget : Expr → Bool
  | .at _ (.name _) => true
  | .at _ (.attribute _ _) => true
  | .at _ (.subscript _ _) => true
  | _ => false

namespace Read

/-! ## Literals -/

/-- Text parts next to each other as one, without empty ones; a hole's own
reader is `hole`. -/
def joinPieces (span : Span) (hole : Format.Piece → Option Expr) :
    Text → List Format.Piece → Option (List Expr)
  | pending, [] => some (flush pending)
  | pending, .text cs :: rest => joinPieces span hole (pending ++ cs) rest
  | pending, piece@(.hole _ _ shown _ _) :: rest => do
    let e ← hole piece
    let more ← joinPieces span hole [] rest
    some (flush (pending ++ Text.ofChars (shown.getD [])) ++ e :: more)
where
  flush (cs : Text) : List Expr :=
    if cs.isEmpty then [] else [.at span (.constant (.text cs false))]

/-- The expression in the braces of a hole, read as if it stood in brackets. -/
def holeExpression? (inner : Level → Read Expr) (place : Place) (text : List Char) : Option Expr := do
  let tokens ← tokens? place ('(' :: text ++ [')'])
  let (e, rest) ← inner .expression (inputOf tokens)
  if rest.tokens.head?.any fun t => t.kind = .newline then some e else none

/-- A hole as an expression; `span` is that of the whole text. -/
def holeOf? (inner : Level → Read Expr) (span : Span) : Nat → Format.Piece → Option Expr
  | 0, _ => none
  | _ + 1, .text _ => none
  | fuel + 1, .hole place text _ conversion spec => do
    let value ← holeExpression? inner place text
    let spec ← match spec with
      | none => some none
      | some pieces => do
        let parts ← joinPieces span (holeOf? inner span fuel) [] pieces
        some (some (.at span (.joined parts)))
    some (.at span (.formatted value conversion spec))

/-- Adjacent strings as one expression. Texts and byte strings do not mix, and
one formatted text makes the whole formatted. -/
def stringsOf? (inner : Level → Read Expr) (span : Span) (tokens : List Token) : Option Expr := do
  let parts := tokens.map Token.stringParts
  let isMarked := parts.head?.any (·.isMarked)
  if parts.all (·.isBytes) then
    let bytes ← parts.mapM fun s => bytesOfBody? s.isRaw s.body
    some (.at span (.constant (.bytes bytes.flatten)))
  else if parts.any (·.isBytes) then none
  else
    let pieces ← parts.mapM fun s =>
      if s.isFormatted then s.pieces?
      else (textOfBody? s.isRaw s.body).map fun cs => [Format.Piece.text cs]
    if parts.any (·.isFormatted) then
      let values ← joinPieces span (holeOf? inner span 3) [] pieces.flatten
      some (.at span (.joined values))
    else
      let text := pieces.flatten.flatMap fun
        | .text cs => cs
        | .hole .. => []
      some (.at span (.constant (.text text isMarked)))

/-- One or more strings. -/
def strings (inner : Level → Read Expr) : Read Expr := do
  let start ← here
  let tokens ← many1 (takeIf fun t => t.kind = .string)
  match stringsOf? inner (← spanFrom start) tokens with
  | some e => pure e
  | none => failure

/-- A number. -/
def number : Read Expr := do
  let start ← here
  let t ← takeIf fun t => t.kind = .number
  match numberValue? t.text with
  | some value => return .at (← spanFrom start) (.constant value)
  | none => failure

/-! ## Lists of expressions -/

/-- A star with what it spreads. -/
def starred (value : Read Expr) : Read Expr := do
  let start ← here
  symbol "*"
  let e ← value
  return .at (← spanFrom start) (.starred e)

/-- Whether a name follows that is bound by `:=`. -/
def atWalrus : Read Bool := do
  if (← peek).kind = .name then return (← peekSecond).is .symbol ":=" else return false

/-- An expression, or a name bound to one by `:=`. -/
def namedExpression (inner : Level → Read Expr) (expression : Read Expr) : Read Expr := do
  if ← atWalrus then
    let start ← here
    let id ← name
    let target := Expr.at (← spanFrom start) (.name id)
    symbol ":="
    let value ← inner .expression
    return .at (← spanFrom start) (.named target value)
  else
    let e ← expression
    if ← atSymbol ":=" then failure else pure e

/-- An item of a display: a starred expression, or one that may be bound. -/
def starNamedExpression (inner : Level → Read Expr) : Read Expr := do
  if ← atSymbol "*" then starred (inner .bitOr) else namedExpression inner (inner .expression)

/-- One expression, or several as a tuple. -/
def tupleOf (item : Read Expr) : Read Expr := do
  let start ← here
  match ← commaList item with
  | ([e], false) => pure e
  | (es, _) => return .at (← spanFrom start) (.tuple es)

/-- An expression that may be starred. -/
def starExpression (inner : Level → Read Expr) : Read Expr := do
  if ← atSymbol "*" then starred (inner .bitOr) else inner .expression

/-- One or more expressions that may be starred. -/
def starExpressions (inner : Level → Read Expr) : Read Expr := tupleOf (starExpression inner)

/-- A `yield` expression. -/
def yieldExpression (inner : Level → Read Expr) : Read Expr := do
  let start ← here
  keyword "yield"
  if ← atKeyword "from" then
    keyword "from"
    let e ← inner .expression
    return .at (← spanFrom start) (.yieldFrom e)
  else
    let e ← optional (starExpressions inner)
    return .at (← spanFrom start) (.yield e)

/-- Targets of a loop or of a `for` clause. -/
def loopTargets (inner : Level → Read Expr) : Read Expr := do
  let item := do
    if ← atSymbol "*" then starred (inner .primary) else inner .primary
  let e ← tupleOf item
  if e.isTarget then pure e else failure

/-! ## Comprehensions -/

/-- A `for` clause with its conditions. -/
def clause (inner : Level → Read Expr) : Read Comprehension := do
  let isAsync ← optional (keyword "async")
  keyword "for"
  let target ← loopTargets inner
  keyword "in"
  let iter ← inner .disjunction
  let conditions ← many (do keyword "if"; inner .disjunction)
  return .over target iter conditions isAsync.isSome

def clauses (inner : Level → Read Expr) : Read (List Comprehension) := many1 (clause inner)

/-- Whether a `for` clause follows. -/
def atClause : Read Bool := do return (← atKeyword "for") || (← atKeyword "async")

/-- The rest of a display after its first item. -/
def moreItems {α : Type} (item : Read α) : Read (List α × Bool) := do
  let rest ← many (do symbol ","; item)
  let trailing ← optional (symbol ",")
  pure (rest, trailing.isSome)

/-! ## Brackets -/

/-- A bracketed expression, a tuple or a generator. -/
def parenthesised (inner : Level → Read Expr) : Read Expr := do
  let start ← here
  symbol "("
  if ← atSymbol ")" then
    symbol ")"
    return .at (← spanFrom start) (.tuple [])
  else if ← atKeyword "yield" then
    let e ← yieldExpression inner
    symbol ")"
    pure e
  else
    let first ← starNamedExpression inner
    if ← atClause then
      if first.isStarred then failure
      let cs ← clauses inner
      symbol ")"
      return .at (← spanFrom start) (.generator first cs)
    else
      let (rest, trailing) ← moreItems (starNamedExpression inner)
      symbol ")"
      if rest.isEmpty && !trailing then
        if first.isStarred then failure else pure first
      else return .at (← spanFrom start) (.tuple (first :: rest))

/-- A list or a list comprehension. -/
def bracketed (inner : Level → Read Expr) : Read Expr := do
  let start ← here
  symbol "["
  if ← atSymbol "]" then
    symbol "]"
    return .at (← spanFrom start) (.list [])
  else
    let first ← starNamedExpression inner
    if ← atClause then
      if first.isStarred then failure
      let cs ← clauses inner
      symbol "]"
      return .at (← spanFrom start) (.listComp first cs)
    else
      let (rest, _) ← moreItems (starNamedExpression inner)
      symbol "]"
      return .at (← spanFrom start) (.list (first :: rest))

/-- An item of a dictionary display. -/
def dictItem (inner : Level → Read Expr) : Read DictItem := do
  if ← atSymbol "**" then
    symbol "**"
    return .spread (← inner .bitOr)
  else
    let key ← inner .expression
    symbol ":"
    return .pair key (← inner .expression)

/-- A dictionary, a set, or a comprehension of either. -/
def braced (inner : Level → Read Expr) : Read Expr := do
  let start ← here
  symbol "\x7b"
  if ← atSymbol "\x7d" then
    symbol "\x7d"
    return .at (← spanFrom start) (.dict [])
  else if ← atSymbol "**" then
    let (items, _) ← commaList (dictItem inner)
    symbol "\x7d"
    return .at (← spanFrom start) (.dict items)
  else
    let bound ← atWalrus
    let first ← starNamedExpression inner
    if !bound && !first.isStarred && (← atSymbol ":") then
      symbol ":"
      let value ← inner .expression
      if ← atClause then
        let cs ← clauses inner
        symbol "\x7d"
        return .at (← spanFrom start) (.dictComp first value cs)
      else
        let (rest, _) ← moreItems (dictItem inner)
        symbol "\x7d"
        return .at (← spanFrom start) (.dict (.pair first value :: rest))
    else if ← atClause then
      if first.isStarred then failure
      let cs ← clauses inner
      symbol "\x7d"
      return .at (← spanFrom start) (.setComp first cs)
    else
      let (rest, _) ← moreItems (starNamedExpression inner)
      symbol "\x7d"
      return .at (← spanFrom start) (.set (first :: rest))

/-- What stands for itself. -/
def atom (inner : Level → Read Expr) : Read Expr := do
  let t ← peek
  let start := t.first
  match t.kind with
  | .name =>
    let id ← name
    return .at (← spanFrom start) (.name id)
  | .number => number
  | .string => strings inner
  | .keyword =>
    let value ←
      if t.text = "None".toList then pure Literal.nothing
      else if t.text = "True".toList then pure (.truth true)
      else if t.text = "False".toList then pure (.truth false)
      else failure
    let _ ← take
    return .at (← spanFrom start) (.constant value)
  | .symbol =>
    if t.text = ['('] then parenthesised inner
    else if t.text = ['['] then bracketed inner
    else if t.text = ['\x7b'] then braced inner
    else if t.text = "...".toList then
      let _ ← take
      return .at (← spanFrom start) (.constant .ellipsis)
    else failure
  | _ => failure

/-! ## Calls and subscripts -/

/-- An argument of a call. -/
inductive Argument where
  | positional (value : Expr)
  | star (value : Expr)
  | keyword (keyword : Keyword)
  | spread (keyword : Keyword)

/-- Whether arguments stand in an order that is allowed: no plain one after a
keyword, and no star after a mapping that is spread. -/
def inOrder : Bool → Bool → List Argument → Bool
  | _, _, [] => true
  | named, spread, .positional _ :: rest => !named && !spread && inOrder named spread rest
  | named, spread, .star _ :: rest => !spread && inOrder named spread rest
  | _, spread, .keyword _ :: rest => inOrder true spread rest
  | named, _, .spread _ :: rest => inOrder named true rest

def argument (inner : Level → Read Expr) : Read Argument := do
  let start ← here
  if ← atSymbol "*" then return .star (← starred (inner .expression))
  else if ← atSymbol "**" then
    symbol "**"
    let value ← inner .expression
    return .spread (.at (← spanFrom start) none value)
  else if (← peek).kind = .name && (← peekSecond).is .symbol "=" then
    let id ← name
    symbol "="
    let value ← inner .expression
    return .keyword (.at (← spanFrom start) (some id) value)
  else return .positional (← namedExpression inner (inner .expression))

/-- The values that are passed by position, and those passed by name. -/
def splitArguments (arguments : List Argument) : List Expr × List Keyword :=
  (arguments.filterMap fun
    | .positional e => some e
    | .star e => some e
    | _ => none,
   arguments.filterMap fun
    | .keyword k => some k
    | .spread k => some k
    | _ => none)

/-- Arguments without the brackets around them. -/
def arguments (inner : Level → Read Expr) : Read (List Expr × List Keyword) := do
  let (list, _) ← commaList (argument inner)
  if inOrder false false list then pure (splitArguments list) else failure

/-- The arguments of a call with their brackets. A generator that is the only
argument needs no brackets of its own. -/
def callArguments (inner : Level → Read Expr) : Read (List Expr × List Keyword) := do
  let start ← here
  symbol "("
  if ← atSymbol ")" then
    symbol ")"
    pure ([], [])
  else
    let first ← argument inner
    if ← atClause then
      match first with
      | .positional e =>
        let cs ← clauses inner
        symbol ")"
        return ([.at (← spanFrom start) (.generator e cs)], [])
      | _ => failure
    else
      let (rest, _) ← moreItems (argument inner)
      symbol ")"
      if inOrder false false (first :: rest) then pure (splitArguments (first :: rest)) else failure

/-- The bound of a slice, if it is given. -/
def bound (inner : Level → Read Expr) : Read (Option Expr) := do
  if (← atSymbol ":") || (← atSymbol "]") || (← atSymbol ",") then pure none
  else return some (← inner .expression)

/-- The rest of a slice from its first colon on. -/
def sliceTail (inner : Level → Read Expr) (start : Place) (lower : Option Expr) : Read Expr := do
  symbol ":"
  let upper ← bound inner
  let step ←
    if ← atSymbol ":" then
      symbol ":"
      bound inner
    else pure none
  return .at (← spanFrom start) (.slice lower upper step)

/-- One item of a subscript. -/
def subscriptItem (inner : Level → Read Expr) : Read Expr := do
  let start ← here
  if ← atSymbol "*" then starred (inner .expression)
  else if ← atSymbol ":" then sliceTail inner start none
  else if ← atWalrus then namedExpression inner (inner .expression)
  else
    let e ← inner .expression
    if ← atSymbol ":" then sliceTail inner start (some e) else pure e

/-- What stands in the brackets of a subscript. -/
def subscriptIndex (inner : Level → Read Expr) : Read Expr := do
  let start ← here
  match ← commaList (subscriptItem inner) with
  | ([e], false) =>
    if e.isStarred then return .at (← spanFrom start) (.tuple [e]) else pure e
  | (es, _) => return .at (← spanFrom start) (.tuple es)

/-- What may follow a primary, applied to it. -/
def trailer (inner : Level → Read Expr) : Read (Expr → ExprForm) := do
  if ← atSymbol "." then
    symbol "."
    let member ← name
    return fun e => .attribute e member
  else if ← atSymbol "(" then
    let (positional, keywords) ← callArguments inner
    return fun e => .call e positional keywords
  else
    symbol "["
    let index ← subscriptIndex inner
    symbol "]"
    return fun e => .subscript e index

/-- What builds larger expressions from left to right: each step is applied
to what was read before, and ends where its last token ended. -/
def leftToRight (start : Place) (first : Expr) (step : Read (Expr → ExprForm)) : Read Expr := do
  let steps ← many (do
    let f ← step
    return (f, ← spanFrom start))
  return steps.foldl (fun e (f, span) => .at span (f e)) first

/-- An atom with its attributes, calls and subscripts. -/
def primary (inner : Level → Read Expr) : Read Expr := do
  let start ← here
  let first ← atom inner
  leftToRight start first (trailer inner)

/-! ## Operators -/

/-- Takes one of some symbols and says what it stands for. -/
def operator {α : Type} (table : List (String × α)) : Read α := do
  let t ← peek
  match table.find? fun (text, _) => t.is .symbol text with
  | some (_, op) => take *> pure op
  | none => failure

/-- Binary operators of one strength, grouped to the left. -/
def binaryLevel (ops : List (String × BinaryOp)) (operand : Read Expr) : Read Expr := do
  let start ← here
  let first ← operand
  leftToRight start first (do
    let op ← operator ops
    let right ← operand
    return fun left => .binary left op right)

/-- A primary that may be awaited. -/
def awaited (inner : Level → Read Expr) : Read Expr := do
  let start ← here
  if ← atKeyword "await" then
    keyword "await"
    let e ← primary inner
    return .at (← spanFrom start) (.await e)
  else primary inner

/-- A power. Its exponent may have a sign. -/
def power (inner : Level → Read Expr) : Read Expr := do
  let start ← here
  let base ← awaited inner
  if ← atSymbol "**" then
    symbol "**"
    let exponent ← inner .factor
    return .at (← spanFrom start) (.binary base .power exponent)
  else pure base

def signs : List (String × UnaryOp) := [("+", .plus), ("-", .minus), ("~", .invert)]

/-- A power that may have a sign. -/
def factor (inner : Level → Read Expr) : Read Expr := do
  let start ← here
  match ← optional (operator signs) with
  | some op =>
    let e ← inner .factor
    return .at (← spanFrom start) (.unary op e)
  | none => power inner

def term (inner : Level → Read Expr) : Read Expr :=
  binaryLevel [("*", .mult), ("/", .div), ("//", .floorDiv), ("%", .modulo), ("@", .matMult)]
    (factor inner)

def sum (inner : Level → Read Expr) : Read Expr :=
  binaryLevel [("+", .add), ("-", .sub)] (term inner)

def shift (inner : Level → Read Expr) : Read Expr :=
  binaryLevel [("<<", .shiftLeft), (">>", .shiftRight)] (sum inner)

def bitAnd (inner : Level → Read Expr) : Read Expr := binaryLevel [("&", .bitAnd)] (shift inner)

def bitXor (inner : Level → Read Expr) : Read Expr := binaryLevel [("^", .bitXor)] (bitAnd inner)

def bitOr (inner : Level → Read Expr) : Read Expr := binaryLevel [("|", .bitOr)] (bitXor inner)

/-- A comparison operator. -/
def compareOp : Read CompareOp := do
  let t ← peek
  if t.kind = .symbol then
    operator [("==", .eq), ("!=", .notEq), ("<=", .le), ("<", .lt), (">=", .ge), (">", .gt)]
  else if ← atKeyword "in" then
    keyword "in"
    pure .isIn
  else if ← atKeyword "not" then
    keyword "not"
    keyword "in"
    pure .notIn
  else
    keyword "is"
    match ← optional (keyword "not") with
    | some _ => pure .isNot
    | none => pure .is

/-- A comparison, or a chain of them. -/
def comparison (inner : Level → Read Expr) : Read Expr := do
  let start ← here
  let left ← bitOr inner
  let rest ← many (do
    let op ← compareOp
    return (op, ← bitOr inner))
  if rest.isEmpty then pure left
  else return .at (← spanFrom start) (.compare left (rest.map (·.1)) (rest.map (·.2)))

def inversion (inner : Level → Read Expr) : Read Expr := do
  let start ← here
  if ← atKeyword "not" then
    keyword "not"
    let e ← inner .inversion
    return .at (← spanFrom start) (.unary .not e)
  else comparison inner

/-- Operands joined by one of the two logical operators. -/
def booleanLevel (word : String) (op : BoolOp) (operand : Read Expr) : Read Expr := do
  let start ← here
  let first ← operand
  let rest ← many (do keyword word; operand)
  if rest.isEmpty then pure first
  else return .at (← spanFrom start) (.boolean op (first :: rest))

def conjunction (inner : Level → Read Expr) : Read Expr :=
  booleanLevel "and" .and (inversion inner)

def disjunction (inner : Level → Read Expr) : Read Expr :=
  booleanLevel "or" .or (conjunction inner)

/-! ## Parameters -/

/-- An item of a list of parameters. -/
inductive ParameterItem where
  | slash
  | star (rest : Option Parameter)
  | keywords (parameter : Parameter)
  | plain (parameter : Parameter)

/-- A parameter with its type hint, and a default if one is allowed. The
default is no part of its span. -/
def parameter (hint : Read (Option Expr)) (default : Read (Option Expr)) : Read Parameter := do
  let start ← here
  let id ← name
  let written ← hint
  let span ← spanFrom start
  return .at span id written (← default)

/-- A default value. -/
def defaultValue (inner : Level → Read Expr) : Read (Option Expr) := do
  if ← atSymbol "=" then
    symbol "="
    return some (← inner .expression)
  else pure none

/-- An item of a list of parameters, by the readers of type hints and of
those that may be starred. -/
def parameterItem (inner : Level → Read Expr) (hint starHint : Read (Option Expr)) :
    Read ParameterItem := do
  if ← atSymbol "/" then
    symbol "/"
    pure .slash
  else if ← atSymbol "**" then
    symbol "**"
    return .keywords (← parameter hint (pure none))
  else if ← atSymbol "*" then
    symbol "*"
    if ← atSymbol "," then pure (.star none)
    else return .star (some (← parameter starHint (pure none)))
  else return .plain (← parameter hint (defaultValue inner))

/-- Whether no parameter without a default follows one that has one. -/
def defaultsLast : Bool → List Parameter → Bool
  | _, [] => true
  | seen, p :: rest => (p.default.isSome || !seen) && defaultsLast (seen || p.default.isSome) rest

/-- The plain parameters at the start of a list of items, and the others. -/
def plainRun : List ParameterItem → List Parameter × List ParameterItem
  | .plain p :: rest =>
    let (ps, others) := plainRun rest
    (p :: ps, others)
  | items => ([], items)

/-- What may come after the parameters that a call may pass by position. -/
def parameterTail? (positionalOnly regular : List Parameter) : List ParameterItem → Option Parameters
  | [] => some (.of positionalOnly regular none [] none)
  | [.keywords p] => some (.of positionalOnly regular none [] (some p))
  | .star rest :: items =>
    let (named, others) := plainRun items
    if rest.isNone && named.isEmpty then none
    else match others with
      | [] => some (.of positionalOnly regular rest named none)
      | [.keywords p] => some (.of positionalOnly regular rest named (some p))
      | _ => none
  | _ => none

/-- The parameters that a list of items makes, if it is a proper one. -/
def parametersOf? (items : List ParameterItem) : Option Parameters :=
  let (first, others) := plainRun items
  match others with
  | .slash :: rest =>
    let (regular, others) := plainRun rest
    if first.isEmpty || !defaultsLast false (first ++ regular) then none
    else parameterTail? first regular others
  | others => if defaultsLast false first then parameterTail? [] first others else none

/-- Parameters up to a closing symbol, which stays in the input. -/
def parameters (close : String) (item : Read ParameterItem) : Read Parameters := do
  if ← atSymbol close then pure .none
  else
    let (items, _) ← commaList item
    match parametersOf? items with
    | some ps => pure ps
    | none => failure

/-- A function without a name. -/
def lambda (inner : Level → Read Expr) : Read Expr := do
  let start ← here
  keyword "lambda"
  let ps ← parameters ":" (parameterItem inner (pure none) (pure none))
  symbol ":"
  let body ← inner .expression
  return .at (← spanFrom start) (.lambda ps body)

/-! ## Expressions -/

/-- An expression: a conditional one, a function without a name, or operands. -/
def expression (inner : Level → Read Expr) : Read Expr := do
  let start ← here
  if ← atKeyword "lambda" then lambda inner
  else
    let body ← disjunction inner
    (do
      keyword "if"
      let test ← disjunction inner
      keyword "else"
      let orelse ← inner .expression
      return .at (← spanFrom start) (.conditional test body orelse))
    <|> pure body

/-- An expression of some level. -/
def expressionOf (inner : Level → Read Expr) : Level → Read Expr
  | .expression => expression inner
  | .disjunction => disjunction inner
  | .inversion => inversion inner
  | .bitOr => bitOr inner
  | .factor => factor inner
  | .primary => primary inner

/-- Expressions that nest up to a depth. -/
def expressionAt : Nat → Level → Read Expr
  | 0 => fun _ => failure
  | depth + 1 => expressionOf (expressionAt depth)

end Read
end Reaching.Code
