/-
The first line of a statement's source text.

Only a definition has parts on other lines; if one of these has no source
text, the statement has none either.
-/
import Reaching.Code.Node
import Reaching.Code.Write.Expr
import Reaching.Text.Lines

namespace Reaching.Code
namespace Write

/-- A value after a lead, or nothing. -/
def tail (lead : String) (value : Option Expr) : Option String :=
  optExpr false Strength.test lead value

def aliasText (a : Alias) : String :=
  match a.bound with
  | some bound => a.name ++ " as " ++ bound
  | none => a.name

def withItemText (i : WithItem) : Option String := do
  let c ← expr false Strength.test i.context
  let t ← tail " as " i.target
  some (c ++ t)

/-- Whether a node has a source text by itself, apart from its children. -/
def nodeIsWritable : Node → Bool
  | .expr (.at span (.joined values)) => (expr false Strength.test (.at span (.joined values))).isSome
  | .expr (.at _ (.constant value)) => isWritable value
  | _ => true

/-- The text of a definition: its first decorator or its header. -/
def definitionText (decorators : List Expr) (header : Option String) : Option String :=
  match decorators with
  | [] => header
  | d :: _ => do
    let t ← expr false Strength.test d
    some ("@" ++ t)

/-- The text of a statement up to its block. -/
def header (s : Stmt) : Option String :=
  match s.form with
  | .function isAsync name ps _ decorators returns =>
    definitionText decorators (do
      let p ← parameters false ps
      let r ← tail " -> " returns
      some ((if isAsync then "async def " else "def ") ++ name ++ "(" ++ p ++ ")" ++ r ++ ":"))
  | .classDef name bases keywords _ decorators =>
    definitionText decorators (do
      let bs ← exprs false Strength.test bases
      let ks ← keywordTexts false keywords
      let list := ", ".intercalate (bs ++ ks)
      some ("class " ++ name ++ bracketIf (!(bs ++ ks).isEmpty) list ++ ":"))
  | .ret value => do
    let v ← tail " " value
    some ("return" ++ v)
  | .delete targets => do
    let ts ← exprs false Strength.test targets
    some ("del " ++ ", ".intercalate ts)
  | .assign targets value => do
    let ts ← exprs false Strength.tuple targets
    let v ← expr false Strength.test value
    some (String.join (ts.map (· ++ " = ")) ++ v)
  | .augAssign target op value => do
    let t ← expr false Strength.test target
    let v ← expr false Strength.test value
    some (t ++ " " ++ op.symbol ++ "= " ++ v)
  | .annAssign target hint value bare => do
    let t ← expr false Strength.test target
    let a ← expr false Strength.test hint
    let v ← tail " = " value
    let isName := (Node.expr target).name?.isSome
    some (bracketIf (isName && !bare) t ++ ": " ++ a ++ v)
  | .forLoop isAsync target iter _ _ => do
    let t ← expr false Strength.tuple target
    let i ← expr false Strength.test iter
    some ((if isAsync then "async for " else "for ") ++ t ++ " in " ++ i ++ ":")
  | .whileLoop test _ _ => do
    let t ← expr false Strength.test test
    some ("while " ++ t ++ ":")
  | .ifElse test _ _ => do
    let t ← expr false Strength.test test
    some ("if " ++ t ++ ":")
  | .withItems isAsync items _ => do
    let is ← items.mapM withItemText
    some ((if isAsync then "async with " else "with ") ++ ", ".intercalate is ++ ":")
  | .matchCases subject _ => do
    let t ← expr false Strength.test subject
    some ("match " ++ t ++ ":")
  | .raising error cause => do
    let e ← tail " " error
    let c ← tail " from " cause
    some ("raise" ++ e ++ c)
  | .tryBlock .. => some "try:"
  | .assertion test message => do
    let t ← expr false Strength.test test
    let m ← tail ", " message
    some ("assert " ++ t ++ m)
  | .importNames names => some ("import " ++ ", ".intercalate (names.map aliasText))
  | .importFrom module names level =>
    some ("from " ++ "".pushn '.' level ++ module.getD "" ++ " import "
      ++ ", ".intercalate (names.map aliasText))
  | .globalNames names => some ("global " ++ ", ".intercalate names)
  | .nonlocalNames names => some ("nonlocal " ++ ", ".intercalate names)
  | .expr value => expr false Strength.yield value
  | .pass => some "pass"
  | .breakLoop => some "break"
  | .continueLoop => some "continue"

end Write

/-- One line that stands for a statement: the first of its source text, or the
name of its kind if it has none. -/
def Stmt.summary (s : Stmt) : String :=
  match Write.header s with
  | some text =>
    if (Node.stmt s).breadthFirst.all Write.nodeIsWritable then Text.firstLine text else s.typeName
  | none => s.typeName

end Reaching.Code
