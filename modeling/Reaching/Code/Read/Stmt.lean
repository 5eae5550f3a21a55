/-
Reading statements and modules.

`Nested` holds the readers of what stands inside a statement: expressions,
patterns, and the blocks of compound statements one level further in.
-/
import Reaching.Code.Read.Pattern
import Reaching.Code.Stmt
import Reaching.Text.Lines

namespace Reaching.Code

namespace Read

/-- The readers of the parts of a statement. -/
structure Nested where
  expression : Level → Read Expr
  pattern : Read Pattern
  block : Read (List Stmt)

/-- A statement that starts at a place and ends with the last token. -/
def stmtFrom (start : Place) (form : StmtForm) : Read Stmt := do return .at (← spanFrom start) form

/-! ## Simple statements -/

/-- What may be assigned: a `yield`, or expressions. -/
def assignedValue (n : Nested) : Read Expr := do
  if ← atKeyword "yield" then yieldExpression n.expression else starExpressions n.expression

/-- The operators of augmented assignments. -/
def augmentedOps : List (String × BinaryOp) :=
  [("+=", .add), ("-=", .sub), ("*=", .mult), ("@=", .matMult), ("/=", .div), ("%=", .modulo),
    ("&=", .bitAnd), ("|=", .bitOr), ("^=", .bitXor), ("<<=", .shiftLeft), (">>=", .shiftRight),
    ("**=", .power), ("//=", .floorDiv)]

/-- The rest of an assignment with a type hint. -/
def annotatedTail (n : Nested) (start : Place) (target : Expr) (bare : Bool) : Read Stmt := do
  symbol ":"
  let hint ← n.expression .expression
  let value ←
    if ← atSymbol "=" then
      symbol "="
      some <$> assignedValue n
    else pure none
  stmtFrom start (.annAssign target hint value bare)

/-- An expression statement or an assignment. -/
def expressionStatement (n : Nested) : Read Stmt := do
  let start ← here
  if (← peek).kind = .name && (← peekSecond).is .symbol ":" then
    let id ← name
    let target := Expr.at (← spanFrom start) (.name id)
    annotatedTail n start target true
  else
    let bracketed ← atSymbol "("
    let first ← assignedValue n
    if ← atSymbol "=" then
      let rest ← many1 (do
        symbol "="
        assignedValue n)
      let all := first :: rest
      let targets := all.dropLast
      if !targets.all Expr.isTarget then failure
      stmtFrom start (.assign targets (all.getLastD first))
    else if ← atSymbol ":" then
      let isName := match first with
        | .at _ (.name _) => true
        | _ => false
      if !first.isSingleTarget || (isName && !bracketed) then failure
      annotatedTail n start first false
    else match ← optional (operator augmentedOps) with
      | some op =>
        if !first.isSingleTarget then failure
        let value ← assignedValue n
        stmtFrom start (.augAssign first op value)
      | none => stmtFrom start (.expr first)

/-- A name that an import binds, or none. -/
def boundName : Read (Option String) := do
  if ← atKeyword "as" then
    keyword "as"
    some <$> name
  else pure none

/-- Names joined by points, as one text. -/
def dottedText : Read String := do
  let first ← name
  let rest ← many (do
    symbol "."
    name)
  return ".".intercalate (first :: rest)

def aliasOf (text : Read String) : Read Alias := do
  let start ← here
  let id ← text
  let bound ← boundName
  return ⟨← spanFrom start, id, bound⟩

def importStatement : Read Stmt := do
  let start ← here
  keyword "import"
  let names ← commaSeparated (aliasOf dottedText)
  stmtFrom start (.importNames names)

/-- The points in front of a relative import. -/
def importLevel : Read Nat := do
  let dots ← many ((symbol "." *> pure 1) <|> (symbol "..." *> pure 3))
  return dots.foldl (· + ·) 0

def importFromStatement : Read Stmt := do
  let start ← here
  keyword "from"
  let level ← importLevel
  let module ← if ← atKeyword "import" then pure none else some <$> dottedText
  if level = 0 && module.isNone then failure
  keyword "import"
  let names ←
    if ← atSymbol "*" then
      let star ← here
      symbol "*"
      pure [⟨← spanFrom star, "*", none⟩]
    else if ← atSymbol "(" then
      symbol "("
      let (names, _) ← commaList (aliasOf name)
      symbol ")"
      pure names
    else commaSeparated (aliasOf name)
  stmtFrom start (.importFrom module names level)

def deleteStatement (n : Nested) : Read Stmt := do
  let start ← here
  keyword "del"
  let (targets, _) ← commaList (n.expression .primary)
  if !targets.all Expr.isDeletable then failure
  stmtFrom start (.delete targets)

def raiseStatement (n : Nested) : Read Stmt := do
  let start ← here
  keyword "raise"
  match ← optional (n.expression .expression) with
  | none => stmtFrom start (.raising none none)
  | some error =>
    let cause ←
      if ← atKeyword "from" then
        keyword "from"
        some <$> n.expression .expression
      else pure none
    stmtFrom start (.raising (some error) cause)

def assertStatement (n : Nested) : Read Stmt := do
  let start ← here
  keyword "assert"
  let test ← n.expression .expression
  let message ←
    if ← atSymbol "," then
      symbol ","
      some <$> n.expression .expression
    else pure none
  stmtFrom start (.assertion test message)

/-- A statement of one keyword. -/
def wordStatement (word : String) (form : StmtForm) : Read Stmt := do
  let start ← here
  keyword word
  stmtFrom start form

/-- A statement without a block. -/
def simpleStatement (n : Nested) : Read Stmt := do
  let start ← here
  let t ← peek
  if t.kind ≠ .keyword then expressionStatement n
  else match String.ofList t.text with
    | "return" =>
      keyword "return"
      let value ← optional (starExpressions n.expression)
      stmtFrom start (.ret value)
    | "import" => importStatement
    | "from" => importFromStatement
    | "raise" => raiseStatement n
    | "pass" => wordStatement "pass" .pass
    | "break" => wordStatement "break" .breakLoop
    | "continue" => wordStatement "continue" .continueLoop
    | "del" => deleteStatement n
    | "assert" => assertStatement n
    | "global" =>
      keyword "global"
      let names ← commaSeparated name
      stmtFrom start (.globalNames names)
    | "nonlocal" =>
      keyword "nonlocal"
      let names ← commaSeparated name
      stmtFrom start (.nonlocalNames names)
    | _ => expressionStatement n

/-- Simple statements on one line. -/
def simpleStatements (n : Nested) : Read (List Stmt) := do
  let first ← simpleStatement n
  let rest ← many (do
    symbol ";"
    simpleStatement n)
  let _ ← optional (symbol ";")
  layout .newline
  pure (first :: rest)

/-! ## Compound statements -/

/-- A colon and a block. -/
def colonBlock (n : Nested) : Read (List Stmt) := do
  symbol ":"
  n.block

/-- A block after a keyword, or nothing. -/
def clauseBlock (n : Nested) (word : String) : Read (List Stmt) := do
  if ← atKeyword word then
    keyword word
    colonBlock n
  else pure []

/-- The test and the block of an `if` or `elif`. -/
def testedBlock (n : Nested) (word : String) : Read (Place × Expr × List Stmt) := do
  let start ← here
  keyword word
  let test ← namedExpression n.expression (n.expression .expression)
  let body ← colonBlock n
  pure (start, test, body)

/-- An `if` with its `elif` parts nested, which all end where the last one
does. -/
def ifStatement (n : Nested) : Read Stmt := do
  let first ← testedBlock n "if"
  let rest ← many (testedBlock n "elif")
  let orelse ← clauseBlock n "else"
  let last ← lastPlace
  let nest := fun (start, test, body) orelse =>
    Stmt.at (Place.spanTo start last) (.ifElse test body orelse)
  return nest first (rest.foldr (fun part orelse => [nest part orelse]) orelse)

def whileStatement (n : Nested) : Read Stmt := do
  let (start, test, body) ← testedBlock n "while"
  let orelse ← clauseBlock n "else"
  stmtFrom start (.whileLoop test body orelse)

def forStatement (n : Nested) (start : Place) (isAsync : Bool) : Read Stmt := do
  keyword "for"
  let target ← loopTargets n.expression
  keyword "in"
  let iter ← starExpressions n.expression
  let body ← colonBlock n
  let orelse ← clauseBlock n "else"
  stmtFrom start (.forLoop isAsync target iter body orelse)

/-- What an item of a `with` statement is bound to. -/
def withTarget (n : Nested) : Read Expr := do
  let e ← if ← atSymbol "*" then starred (n.expression .primary) else n.expression .primary
  if e.isTarget then pure e else failure

def withItem (n : Nested) : Read WithItem := do
  let context ← n.expression .expression
  if ← atKeyword "as" then
    keyword "as"
    return ⟨context, some (← withTarget n)⟩
  else return ⟨context, none⟩

/-- The items of a `with` statement up to the colon, which stays in the input.
Brackets around all of them belong to the statement if what they hold reads as
items. -/
def withItems (n : Nested) : Read (List WithItem) :=
  (do
    symbol "("
    let (items, _) ← commaList (withItem n)
    symbol ")"
    if ← atSymbol ":" then pure items else failure)
  <|> commaSeparated (withItem n)

def withStatement (n : Nested) (start : Place) (isAsync : Bool) : Read Stmt := do
  keyword "with"
  let items ← withItems n
  let body ← colonBlock n
  stmtFrom start (.withItems isAsync items body)

/-- An `except` block, with whether it handles groups. -/
def handler (n : Nested) : Read (Bool × Handler) := do
  let start ← here
  keyword "except"
  let isGroup ← optional (symbol "*")
  if isGroup.isNone && (← atSymbol ":") then
    let body ← colonBlock n
    return (false, .at (← spanFrom start) none none body)
  else
    let type ← n.expression .expression
    let bound ← boundName
    let body ← colonBlock n
    return (isGroup.isSome, .at (← spanFrom start) (some type) bound body)

/-- A `try` statement. Its handlers are all of one sort; it has a handler or a
`finally` block, and an `else` block only after handlers. -/
def tryStatement (n : Nested) : Read Stmt := do
  let start ← here
  keyword "try"
  let body ← colonBlock n
  let handlers ← many (handler n)
  let isGroup := handlers.head?.any (·.1)
  if handlers.any fun h => h.1 ≠ isGroup then failure
  let orelse ← if handlers.isEmpty then pure [] else clauseBlock n "else"
  let finalbody ← clauseBlock n "finally"
  if handlers.isEmpty && finalbody.isEmpty then failure
  stmtFrom start (.tryBlock isGroup body (handlers.map (·.2)) orelse finalbody)

/-- A `case` block. -/
def caseBlock (n : Nested) : Read Case := do
  softKeyword "case"
  let p ← casePattern n.pattern
  let guard ←
    if ← atKeyword "if" then
      keyword "if"
      some <$> namedExpression n.expression (n.expression .expression)
    else pure none
  let body ← colonBlock n
  return .of p guard body

/-- The subject of a `match` statement. -/
def subject (n : Nested) : Read Expr := do
  let start ← here
  match ← commaList (starNamedExpression n.expression) with
  | ([e], false) => if e.isStarred then failure else pure e
  | (es, _) => return .at (← spanFrom start) (.tuple es)

def matchStatement (n : Nested) : Read Stmt := do
  let start ← here
  softKeyword "match"
  let e ← subject n
  symbol ":"
  layout .newline
  layout .indent
  let cases ← many1 (caseBlock n)
  layout .dedent
  stmtFrom start (.matchCases e cases)

/-- The type hint of a parameter; one after a star may be starred. -/
def hint (n : Nested) (starAllowed : Bool) : Read (Option Expr) := do
  if ← atSymbol ":" then
    symbol ":"
    if starAllowed then some <$> starExpression n.expression
    else some <$> n.expression .expression
  else pure none

def functionStatement (n : Nested) (decorators : List Expr) (start : Place) (isAsync : Bool) :
    Read Stmt := do
  keyword "def"
  let id ← name
  symbol "("
  let ps ← parameters ")" (parameterItem n.expression (hint n false) (hint n true))
  symbol ")"
  let returns ←
    if ← atSymbol "->" then
      symbol "->"
      some <$> n.expression .expression
    else pure none
  let body ← colonBlock n
  stmtFrom start (.function isAsync id ps body decorators returns)

def classStatement (n : Nested) (decorators : List Expr) (start : Place) : Read Stmt := do
  keyword "class"
  let id ← name
  let (bases, keywords) ←
    if ← atSymbol "(" then
      symbol "("
      if ← atSymbol ")" then
        symbol ")"
        pure ([], [])
      else
        let found ← arguments n.expression
        symbol ")"
        pure found
    else pure ([], [])
  let body ← colonBlock n
  stmtFrom start (.classDef id bases keywords body decorators)

/-- Decorators, each on a line of its own. -/
def decorators (n : Nested) : Read (List Expr) := many (do
  symbol "@"
  let e ← namedExpression n.expression (n.expression .expression)
  layout .newline
  pure e)

/-- A definition with its decorators; it starts at its keyword. -/
def definition (n : Nested) : Read Stmt := do
  let ds ← decorators n
  let start ← here
  if ← atKeyword "class" then classStatement n ds start
  else
    let isAsync ← optional (keyword "async")
    functionStatement n ds start isAsync.isSome

/-- A statement that may follow `async`. -/
def asyncStatement (n : Nested) : Read Stmt := do
  let start ← here
  if (← peekSecond).is .keyword "def" then definition n
  else
    keyword "async"
    if ← atKeyword "with" then withStatement n start true else forStatement n start true

/-- A statement, or the simple statements of a line. -/
def statement (n : Nested) : Read (List Stmt) := do
  let start ← here
  let t ← peek
  let one := fun (p : Read Stmt) => do return [← p]
  match t.kind, String.ofList t.text with
  | .symbol, "@" => one (definition n)
  | .keyword, "def" => one (definition n)
  | .keyword, "class" => one (definition n)
  | .keyword, "async" => one (asyncStatement n)
  | .keyword, "if" => one (ifStatement n)
  | .keyword, "while" => one (whileStatement n)
  | .keyword, "for" => one (forStatement n start false)
  | .keyword, "with" => one (withStatement n start false)
  | .keyword, "try" => one (tryStatement n)
  | .name, "match" => one (matchStatement n) <|> simpleStatements n
  | _, _ => simpleStatements n

/-- Statements, at least one. -/
def statements (n : Nested) : Read (List Stmt) := do return (← many1 (statement n)).flatten

/-- What follows the colon of a compound statement: simple statements on the
same line, or an indented block. -/
def block (n : Nested) : Read (List Stmt) := do
  if (← peek).kind = .newline then
    layout .newline
    layout .indent
    let body ← statements n
    layout .dedent
    pure body
  else simpleStatements n

/-- Blocks that nest up to a depth. -/
def blockAt (expression : Level → Read Expr) (pattern : Read Pattern) : Nat → Read (List Stmt)
  | 0 => failure
  | depth + 1 => block ⟨expression, pattern, blockAt expression pattern depth⟩

end Read

/-- Why a text is not a module. -/
inductive SourceError where
  | nullByte
  | malformed
  deriving DecidableEq, Repr

/-- The text of an error. -/
def SourceError.message : SourceError → String
  | .nullByte => "source code string cannot contain null bytes"
  | .malformed => "<syntax error>"

/-- The module that a text without carriage returns stands for. Nothing in it
nests deeper than it has characters. -/
def Module.read? (text : List Char) : Option Module := do
  let depth := text.length + 2
  let expression := Read.expressionAt depth
  let pattern := Read.patternAt expression depth
  let nested : Read.Nested := ⟨expression, pattern, Read.blockAt expression pattern depth⟩
  let tokens ← tokens? ⟨1, 0⟩ text
  let (body, rest) ← Read.many (Read.statement nested) (Read.inputOf tokens)
  if rest.tokens.head?.any fun t => t.kind = .endOfText then some ⟨body.flatten⟩ else none

/-- The module that a source text stands for. -/
def Module.ofSource (source : String) : Except SourceError Module :=
  let text := source.toList
  if text.contains '\x00' then .error .nullByte
  else match Module.read? (Text.unifyBreaks text) with
    | some m => .ok m
    | none => .error .malformed

end Reaching.Code
