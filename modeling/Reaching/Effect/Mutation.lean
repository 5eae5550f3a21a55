/-
The names that the calls in a statement change.

A statement is walked depth first. At a call, the rules for its name mark some
of its parts, by the way down to them; a name at or below a marked part is
changed. A call comes before its parts on the walk, so every mark is there when
the names below it are met.
-/
import Reaching.Code.Node
import Reaching.Definition
import Reaching.Rules

namespace Reaching

open Code

/-- The name by which a function is called: a plain one, or a member. -/
def calleeName? : Expr → Option String
  | .at _ (.attribute _ member) => some member
  | .at _ (.name id) => some id
  | _ => none

/-- Whether a function is called as a member of something. -/
def hasReceiver : Expr → Bool
  | .at _ (.attribute _ _) => true
  | _ => false

/-- The parts of a call that a rule says are changed, as the way down from the
call, last step first: the function is the first child of a call, and the
receiver the first child of an attribute; arguments by position follow the
function, and arguments by keyword follow these. -/
def Rule.marks (rule : Rule) (callee : Expr) (arguments : List Expr) (keywords : List Keyword) :
    List (List Nat) :=
  (if rule.mutatesReceiver && hasReceiver callee then [[0, 0]] else [])
    ++ (rule.positions.filter (· < arguments.length)).map (fun p => [p + 1])
    ++ rule.keywords.flatMap fun word =>
      (keywords.zipIdx.filter fun (k, _) => k.name.map Text.ofString = some word).map fun (_, i) =>
        [0, i + arguments.length + 1]

/-- The parts of a call that some rules say are changed. -/
def Rules.marks (rules : Rules) (callee : Expr) (arguments : List Expr) (keywords : List Keyword) :
    List (List Nat) :=
  match calleeName? callee with
  | none => []
  | some name => (rules.named name).flatMap fun rule => rule.marks callee arguments keywords

/-- The marks that a visit adds. -/
def Code.Visit.marks (rules : Rules) (v : Visit) : List (List Nat) :=
  match v.node with
  | .expr (.at _ (.call callee arguments keywords)) =>
    (rules.marks callee arguments keywords).map (· ++ v.path)
  | _ => []

/-- Whether a visit is at or below a marked part. -/
def Code.Visit.isMarked (marks : List (List Nat)) (v : Visit) : Bool :=
  marks.any fun m => m.isSuffixOf v.path

/-- The names met on the rest of a walk that are at or below a marked part. -/
def markedNames (rules : Rules) : List (List Nat) → List Visit → List Reference
  | _, [] => []
  | marks, v :: rest =>
    let found := match v.node.name? with
      | some (id, span) => if v.isMarked marks then [⟨id, span⟩] else []
      | none => []
    found ++ markedNames rules (marks ++ v.marks rules) rest

/-- The definitions that the calls in a statement make. -/
def mutationDefinitions (rules : Rules) (s : Stmt) : Definitions :=
  .ofList ((markedNames rules [] (Node.stmt s).visits).map fun r =>
    { name := r.name, span := r.span, kind := .mutation, owner := s })

end Reaching
