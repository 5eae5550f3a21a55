/-
Mutation rules: which calls change their receiver or their arguments.

Nothing is known of the body of a called function, so a call changes only what
a rule for its name says. Rules are read from JSON, checked field by field,
and written back in the same form.
-/
import Reaching.Json.Value

namespace Reaching

/-- What every call of a function with some name changes: the receiver in
front of the point, arguments by position, and arguments by keyword. Positions
count from zero: a rule that is read from JSON has no others, and rules that are
put together by hand with negative ones are left out here. -/
structure Rule where
  function : Text
  mutatesReceiver : Bool := false
  positions : List Nat := []
  keywords : List Text := []
  deriving DecidableEq, Repr, Inhabited

/-- Rules in the order in which they were given. -/
structure Rules where
  list : List Rule := []
  deriving DecidableEq, Repr, Inhabited

/-- What is wrong with the JSON form of rules. A value that is complained of is
shown in literal notation; one with an integer of too many digits cannot be. -/
inductive RuleError where
  | rulesNotObject
  | listNotArray
  | ruleNotObject (value : Json) (shown : String)
  | noFunctionName (value : Json) (shown : String)
  | badPositions (function : Text)
  | badKeywords (function : Text)
  | notShown (value : Json)
  deriving Repr

namespace RuleError

/-- The text of an error in rules. -/
def message : RuleError → Text
  | .rulesNotObject => "Slicer config must be a JSON object"
  | .listNotArray => "functionConfigs must be a list"
  | .ruleNotObject _ shown => "Function config must be an object, got " ++ shown
  | .noFunctionName _ shown => "Function config without a functionName: " ++ shown
  | .badPositions function =>
    Text.ofString "positionalArgumentsMutated for '" ++ function
      ++ Text.ofString "' must be a list of non-negative integers"
  | .badKeywords function =>
    Text.ofString "keywordArgumentsMutated for '" ++ function ++ Text.ofString "' must be a list of strings"
  | .notShown _ => Text.tooLong

/-- Whether an error is one that the reading of rules announces. A value that
cannot be shown is not. -/
def isAnnounced : RuleError → Bool
  | .notShown _ => false
  | _ => true

/-- The error that shows a value. -/
def showing (error : Json → String → RuleError) (value : Json) : RuleError :=
  match value.literal? with
  | some shown => error value shown
  | none => .notShown value

end RuleError

namespace Rule

/-- A position of an argument: an integer that is not negative. -/
def positionOf? : Json → Option Nat
  | .int n => if 0 ≤ n then some n.toNat else none
  | _ => none

def keywordOf? : Json → Option Text
  | .str s => some s
  | _ => none

/-- Every item of an array, if all of them are of one sort; an absent array is
empty. -/
def itemsOf? {α : Type} (item : Json → Option α) : Option Json → Option (List α)
  | none => some []
  | some (.arr items) => items.mapM item
  | some _ => none

/-- The rule that an object stands for. -/
def ofMembers (members : List (Text × Json)) : Except RuleError Rule :=
  match Json.lookup members "functionName" with
  | some (.str name) =>
    if name.isEmpty then .error (.showing .noFunctionName (.obj members))
    else match itemsOf? positionOf? (Json.lookup members "positionalArgumentsMutated") with
      | none => .error (.badPositions name)
      | some positions =>
        match itemsOf? keywordOf? (Json.lookup members "keywordArgumentsMutated") with
        | none => .error (.badKeywords name)
        | some keywords =>
          let receiver := (Json.lookup members "mutatesInstance").any Json.isTruthy
          .ok ⟨name, receiver, positions, keywords⟩
  | _ => .error (.showing .noFunctionName (.obj members))

/-- The rule that a JSON value stands for. -/
def ofJson : Json → Except RuleError Rule
  | .obj members => ofMembers members
  | value => .error (.showing .ruleNotObject value)

/-- A rule as a JSON object. -/
def toJson (r : Rule) : Json :=
  .obj [("functionName", .str r.function), ("mutatesInstance", .bool r.mutatesReceiver),
    ("positionalArgumentsMutated", .arr (r.positions.map fun (n : Nat) => .int n)),
    ("keywordArgumentsMutated", .arr (r.keywords.map .str))]

end Rule

namespace Rules

/-- No rules: no call changes anything. -/
def empty : Rules := {}

/-- The rules for a function name. -/
def named (rules : Rules) (function : Text) : List Rule :=
  rules.list.filter fun r => r.function = function

/-- The rules of both, those of the first in front. -/
def merge (a b : Rules) : Rules := ⟨a.list ++ b.list⟩

/-- The rules that a JSON value stands for. -/
def ofJson : Json → Except RuleError Rules
  | .obj members =>
    match Json.lookup members "functionConfigs" with
    | none => .ok empty
    | some (.arr items) => (items.mapM Rule.ofJson).map Rules.mk
    | some _ => .error .listNotArray
  | _ => .error .rulesNotObject

/-- Rules as a JSON object. -/
def toJson (rules : Rules) : Json :=
  .obj [("functionConfigs", .arr (rules.list.map Rule.toJson))]

/-- The methods that change the container they are called on. -/
def containerMethods : List String :=
  ["append", "extend", "insert", "remove", "pop", "clear", "sort", "reverse", "update", "add",
    "discard", "setdefault", "popitem", "fit"]

/-- The rules for methods of containers, and for shuffling a sequence. -/
def default : Rules :=
  ⟨containerMethods.map (fun name => ⟨name, true, [], []⟩) ++ [⟨"shuffle", false, [0], []⟩]⟩

end Rules
end Reaching
