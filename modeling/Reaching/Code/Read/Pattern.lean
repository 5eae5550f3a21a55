/-
Reading patterns.

`expression` reads an expression of some level and `inner` a pattern one level
further in.
-/
import Reaching.Code.Pattern
import Reaching.Code.Read.Expr

namespace Reaching.Code.Read

/-- Whether an expression is a number with an imaginary part. -/
def isImaginary : Expr → Bool
  | .at _ (.constant (.imaginary _)) => true
  | _ => false

/-- A number that may be negative. -/
def signedNumber : Read Expr := do
  let start ← here
  if ← atSymbol "-" then
    symbol "-"
    let e ← number
    return .at (← spanFrom start) (.unary .minus e)
  else number

/-- Whether the number itself, below its sign, is imaginary. -/
def hasImaginary : Expr → Bool
  | .at _ (.unary _ e) => isImaginary e
  | e => isImaginary e

/-- A number, or a real part with an imaginary one. -/
def numberPattern : Read Expr := do
  let start ← here
  let left ← signedNumber
  match ← optional (operator [("+", BinaryOp.add), ("-", BinaryOp.sub)]) with
  | none => pure left
  | some op =>
    let right ← number
    if hasImaginary left || !isImaginary right then failure
    return .at (← spanFrom start) (.binary left op right)

/-- A constant that is compared by identity. -/
def singleton : Read Singleton :=
  (keyword "None" *> pure .none) <|> (keyword "True" *> pure .true)
    <|> (keyword "False" *> pure .false)

/-- Names joined by points, as an expression; whether there is a point. -/
def dottedName : Read (Expr × Bool) := do
  let start ← here
  let id ← name
  let first := Expr.at (← spanFrom start) (.name id)
  let e ← leftToRight start first (do
    symbol "."
    let member ← name
    return fun e => .attribute e member)
  let isDotted := match e with
    | .at _ (.attribute _ _) => true
    | _ => false
  pure (e, isDotted)

/-- A name that takes the value; the underscore is not one. -/
def captureName : Read String := do
  let id ← name
  if id = "_" then failure
  if (← atSymbol ".") || (← atSymbol "(") || (← atSymbol "=") then failure
  pure id

/-- A star with a name, or with the underscore. -/
def starPattern : Read Pattern := do
  let start ← here
  symbol "*"
  let id ← (softKeyword "_" *> pure none) <|> (some <$> captureName)
  return .at (← spanFrom start) (.star id)

/-- An item of a sequence pattern. -/
def sequenceItem (inner : Read Pattern) : Read Pattern := do
  if ← atSymbol "*" then starPattern else inner

/-- A pattern in brackets, or a sequence. -/
def groupPattern (inner : Read Pattern) : Read Pattern := do
  let start ← here
  symbol "("
  if ← atSymbol ")" then
    symbol ")"
    return .at (← spanFrom start) (.sequence [])
  else
    let isStar ← atSymbol "*"
    let (items, trailing) ← commaList (sequenceItem inner)
    symbol ")"
    match items, trailing, isStar with
    | [p], false, false => pure p
    | [_], false, true => failure
    | items, _, _ => return .at (← spanFrom start) (.sequence items)

/-- A sequence in square brackets. -/
def listPattern (inner : Read Pattern) : Read Pattern := do
  let start ← here
  symbol "["
  if ← atSymbol "]" then
    symbol "]"
    return .at (← spanFrom start) (.sequence [])
  else
    let (items, _) ← commaList (sequenceItem inner)
    symbol "]"
    return .at (← spanFrom start) (.sequence items)

/-- A key of a mapping pattern. -/
def mappingKey (expression : Level → Read Expr) : Read Expr := do
  let start ← here
  let t ← peek
  match t.kind with
  | .string => strings expression
  | .name =>
    let (e, isDotted) ← dottedName
    if isDotted then pure e else failure
  | .keyword =>
    let value ← singleton
    let literal := match value with
      | .none => Literal.nothing
      | .true => .truth true
      | .false => .truth false
    return .at (← spanFrom start) (.constant literal)
  | _ => numberPattern

/-- An item of a mapping pattern: a key with a pattern, or the name of the rest. -/
def mappingItem (expression : Level → Read Expr) (inner : Read Pattern) :
    Read ((Expr × Pattern) ⊕ String) := do
  if ← atSymbol "**" then
    symbol "**"
    return .inr (← captureName)
  else
    let key ← mappingKey expression
    symbol ":"
    return .inl (key, ← inner)

/-- The keys, the patterns and the rest of a mapping pattern; the rest comes
last. -/
def mappingOf? : List ((Expr × Pattern) ⊕ String) → Option (List Expr × List Pattern × Option String)
  | [] => some ([], [], none)
  | [.inr rest] => some ([], [], some rest)
  | .inr _ :: _ => none
  | .inl (key, p) :: items => do
    let (keys, ps, rest) ← mappingOf? items
    some (key :: keys, p :: ps, rest)

def mappingPattern (expression : Level → Read Expr) (inner : Read Pattern) : Read Pattern := do
  let start ← here
  symbol "\x7b"
  if ← atSymbol "\x7d" then
    symbol "\x7d"
    return .at (← spanFrom start) (.mapping [] [] none)
  else
    let (items, _) ← commaList (mappingItem expression inner)
    symbol "\x7d"
    match mappingOf? items with
    | some (keys, ps, rest) => return .at (← spanFrom start) (.mapping keys ps rest)
    | none => failure

/-- An item of a class pattern, with its name if it has one. -/
def classItem (inner : Read Pattern) : Read (Option String × Pattern) := do
  if (← peek).kind = .name && (← peekSecond).is .symbol "=" then
    let id ← name
    symbol "="
    return (some id, ← inner)
  else return (none, ← inner)

/-- A class pattern from its opening bracket on; the positional ones come
first. -/
def classPattern (start : Place) (cls : Expr) (inner : Read Pattern) : Read Pattern := do
  symbol "("
  if ← atSymbol ")" then
    symbol ")"
    return .at (← spanFrom start) (.classOf cls [] [] [])
  else
    let (items, _) ← commaList (classItem inner)
    symbol ")"
    let positional := items.takeWhile fun i => i.1.isNone
    let named := items.dropWhile fun i => i.1.isNone
    if named.any fun i => i.1.isNone then failure
    return .at (← spanFrom start)
      (.classOf cls (positional.map (·.2)) (named.filterMap (·.1)) (named.map (·.2)))

/-- A pattern that starts with a name. -/
def namePattern (inner : Read Pattern) : Read Pattern := do
  let start ← here
  let (e, isDotted) ← dottedName
  if ← atSymbol "(" then classPattern start e inner
  else if ← atSymbol "=" then failure
  else if isDotted then return .at (← spanFrom start) (.value e)
  else match e with
    | .at span (.name id) => pure (.at span (.capture none (some id)))
    | _ => failure

/-- A pattern without `|` or `as` of its own. -/
def closedPattern (expression : Level → Read Expr) (inner : Read Pattern) : Read Pattern := do
  let start ← here
  let t ← peek
  match t.kind with
  | .string =>
    let e ← strings expression
    return .at (← spanFrom start) (.value e)
  | .keyword =>
    let value ← singleton
    return .at (← spanFrom start) (.singleton value)
  | .name =>
    if t.text = ['_'] then
      let _ ← take
      return .at (← spanFrom start) (.capture none none)
    else namePattern inner
  | .symbol =>
    if t.text = ['('] then groupPattern inner
    else if t.text = ['['] then listPattern inner
    else if t.text = ['\x7b'] then mappingPattern expression inner
    else
      let e ← numberPattern
      return .at (← spanFrom start) (.value e)
  | _ =>
    let e ← numberPattern
    return .at (← spanFrom start) (.value e)

/-- Alternatives. -/
def orPattern (expression : Level → Read Expr) (inner : Read Pattern) : Read Pattern := do
  let start ← here
  let first ← closedPattern expression inner
  let rest ← many (do
    symbol "|"
    closedPattern expression inner)
  if rest.isEmpty then pure first
  else return .at (← spanFrom start) (.either (first :: rest))

/-- A pattern that may be given a name. -/
def asPattern (expression : Level → Read Expr) (inner : Read Pattern) : Read Pattern := do
  let start ← here
  let p ← orPattern expression inner
  if ← atKeyword "as" then
    keyword "as"
    let id ← captureName
    return .at (← spanFrom start) (.capture (some p) (some id))
  else pure p

/-- Patterns that nest up to a depth. -/
def patternAt (expression : Level → Read Expr) : Nat → Read Pattern
  | 0 => failure
  | depth + 1 => asPattern expression (patternAt expression depth)

/-- What a `case` is followed by: a pattern, or several as a sequence. -/
def casePattern (inner : Read Pattern) : Read Pattern := do
  let start ← here
  let isStar ← atSymbol "*"
  match ← commaList (sequenceItem inner) with
  | ([p], false) => if isStar then failure else pure p
  | (ps, _) => return .at (← spanFrom start) (.sequence ps)

end Reaching.Code.Read
