/-
Reading mutation rules from a file.

Four things can be wrong with a file of rules: it cannot be read, it is not
text, its text is not JSON, or its JSON is not one of rules. A file that is not
text, and one with an integer too long to be read, are faults of their own that
name no file.
-/
import Reaching.Files
import Reaching.Json.Reader
import Reaching.Rules

namespace Reaching

/-- Why rules could not be read from a file. -/
inductive RulesFileError where
  | unreadable (error : FileError)
  | notText (error : Text.Utf8Error)
  | notJson (path : Path) (error : Json.ReadError)
  | notRules (error : RuleError)

namespace RulesFileError

/-- The text of an error. -/
def message : RulesFileError → Text
  | .unreadable e =>
    match e.fault with
    | .nullByte => e.message
    | _ => "Could not read slicer config " ++ e.path.text ++ ": " ++ e.message
  | .notText e => e.message
  | .notJson path e =>
    match e with
    | .tooManyDigits _ => e.message
    | _ => "Invalid JSON in slicer config " ++ path.text ++ ": " ++ e.message
  | .notRules e => e.message

/-- Whether an error is one that the reading of rules announces. A null byte in
the path, a file that is not text and an integer that is too long are not. -/
def isAnnounced : RulesFileError → Bool
  | .unreadable e => e.fault ≠ .nullByte
  | .notText _ => false
  | .notJson _ (.tooManyDigits _) => false
  | .notJson _ _ => true
  | .notRules e => e.isAnnounced

end RulesFileError

namespace Rules

/-- The rules that a file holds. -/
def ofFile (fs : Files) (path : Path) : Except RulesFileError Rules := do
  let text ← (fs.readText path).mapError fun
    | .file e => .unreadable e
    | .encoding e => .notText e
  let value ← (Json.ofText text).mapError (.notJson path)
  (ofJson value).mapError .notRules

/-- What is told of rules that were read from a file. -/
def log (rules : Rules) (path : Path) : String :=
  "Loaded " ++ toString rules.list.length ++ " mutation rules from " ++ path.text

end Rules
end Reaching
