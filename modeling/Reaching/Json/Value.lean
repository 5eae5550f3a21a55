/-
JSON values. Integers of any size are kept apart from other numbers, and the
members of an object keep the order in which their keys first appeared.
-/
import Reaching.Decimal.Shortest
import Reaching.Text.Integer
import Reaching.Text.Quoted

namespace Reaching

/-- A JSON value. -/
inductive Json where
  | null
  | bool (value : Bool)
  | int (value : Int)
  | float (value : Binary64)
  | str (value : Text)
  | arr (items : List Json)
  | obj (members : List (Text × Json))
  deriving Repr, Inhabited

namespace Json

/-- A member of an object. -/
def entry (key : String) (value : Json) : Text × Json := (key, value)

/-- The members with one more: a key that is there keeps its place and takes
the new value. -/
def putMember (members : List (Text × Json)) (key : Text) (value : Json) :
    List (Text × Json) :=
  match members with
  | [] => [(key, value)]
  | (k, v) :: rest => if k = key then (k, value) :: rest else (k, v) :: putMember rest key value

/-- The value of a key among members. -/
def lookup (members : List (Text × Json)) (key : Text) : Option Json :=
  (members.find? fun m => m.1 = key).map (·.2)

/-- The value of a key, if this is an object that has it. -/
def get? : Json → Text → Option Json
  | .obj members, key => lookup members key
  | _, _ => none

/-- Whether a value counts as true: not null, false, zero or empty. -/
def isTruthy : Json → Bool
  | .null => false
  | .bool b => b
  | .int n => n ≠ 0
  | .float x => !x.isZero
  | .str s => !s.isEmpty
  | .arr items => !items.isEmpty
  | .obj members => !members.isEmpty

/-! ## Literal notation -/

mutual

/-- A value in literal notation: `None`, `True`, `'text'`, `[1, 2.0]`. A value with an integer of
too many digits has none. -/
def literal? : Json → Option String
  | .null => some "None"
  | .bool b => some (if b then "True" else "False")
  | .int n => Text.decimal? n
  | .float x => some (Decimal.text Decimal.literalForm x)
  | .str s => some (Text.quoted s)
  | .arr items => do
    let texts ← literals? items
    some ("[" ++ ", ".intercalate texts ++ "]")
  | .obj members => do
    let texts ← memberLiterals? members
    some ("\x7b" ++ ", ".intercalate texts ++ "\x7d")

def literals? : List Json → Option (List String)
  | [] => some []
  | v :: rest => do
    let text ← literal? v
    let texts ← literals? rest
    some (text :: texts)

def memberLiterals? : List (Text × Json) → Option (List String)
  | [] => some []
  | (k, v) :: rest => do
    let text ← literal? v
    let texts ← memberLiterals? rest
    some ((Text.quoted k ++ ": " ++ text) :: texts)

end

end Json
end Reaching
