/-
Control flow graphs: blocks of statements joined by links.

Every block has a number, and its links are the numbers of the blocks before
and after it. A number that several blocks have means the last of them.
-/
import Reaching.Code.Stmt

namespace Reaching

/-- The number of a block. -/
abbrev BlockId := Int

/-- What a block is in the layout of a body. -/
inductive BlockKind where
  | entry | branch | loopHeader | loopBody | handler | ret | exit | body
  deriving DecidableEq, Repr, Inhabited

def BlockKind.text : BlockKind → String
  | .entry => "entry"
  | .branch => "branch"
  | .loopHeader => "loop_header"
  | .loopBody => "loop_body"
  | .handler => "except"
  | .ret => "return"
  | .exit => "exit"
  | .body => "body"

/-- How control passes from one block to another. -/
inductive TransferKind where
  | whenTrue | whenFalse | unconditional | backEdge | breakOut | continueLoop
  | iterate | exhausted | error | case
  deriving DecidableEq, Repr, Inhabited

def TransferKind.text : TransferKind → String
  | .whenTrue => "true"
  | .whenFalse => "false"
  | .unconditional => "unconditional"
  | .backEdge => "back_edge"
  | .breakOut => "break"
  | .continueLoop => "continue"
  | .iterate => "iterate"
  | .exhausted => "exhausted"
  | .error => "except"
  | .case => "case"

/-- A transfer of control, with the text of its condition if it has one. -/
structure Transfer where
  source : BlockId
  target : BlockId
  kind : TransferKind
  condition : Option String := none
  deriving DecidableEq, Repr, Inhabited

/-- A run of statements that is entered at the top and left at the bottom. A
statement may be missing in a block made by hand. -/
structure Block where
  id : BlockId
  kind : BlockKind := .body
  firstLine : Int := 0
  lastLine : Int := 0
  statements : List (Option Code.Stmt) := []
  preds : List BlockId := []
  succs : List BlockId := []
  deriving Inhabited

/-- The graph of a function body or of module-level code. -/
structure Graph where
  name : String
  blocks : List Block
  transfers : List Transfer := []
  entry : BlockId := 0
  exits : List BlockId := []
  complexity : Nat := 1
  deriving Inhabited

/-- A link leads to a number that no block has. -/
structure UnknownBlock where
  id : BlockId
  deriving DecidableEq, Repr

/-- The block that a number means. -/
def Graph.block (g : Graph) (id : BlockId) : Except UnknownBlock Block :=
  match g.blocks.reverse.find? fun b => b.id = id with
  | some b => .ok b
  | none => .error ⟨id⟩

end Reaching
