/-
Readers: functions that take tokens off the front of the input or fail.

A reader that fails takes nothing, so alternatives are tried in order with
`<|>`. The input knows how many tokens are left, which bounds repetition, and
where the last token that was taken ended, which is where a span ends.
-/
import Reaching.Code.Token.Format
import Reaching.Text.Normalized

namespace Reaching.Code

/-- What is left to read. -/
structure Input where
  tokens : List Token
  left : Nat
  last : Place

/-- A reader of something. -/
abbrev Read := StateT Input Option

namespace Read

/-- All tokens of a list. -/
def inputOf (tokens : List Token) : Input := ⟨tokens, tokens.length, ⟨1, 0⟩⟩

/-- The next token, which stays in the input. -/
def peek : Read Token := do
  match (← get).tokens with
  | t :: _ => pure t
  | [] => failure

/-- The token after the next one. -/
def peekSecond : Read Token := do
  match (← get).tokens with
  | _ :: t :: _ => pure t
  | _ => failure

/-- Takes the next token. -/
def take : Read Token := do
  match ← get with
  | ⟨t :: rest, left, last⟩ =>
    set (⟨rest, left - 1, if t.kind.isLayout then last else t.last⟩ : Input)
    pure t
  | _ => failure

/-- Takes the next token if it passes a test. -/
def takeIf (test : Token → Bool) : Read Token := do
  if test (← peek) then take else failure

/-- Takes a symbol. -/
def symbol (text : String) : Read Unit := do
  let _ ← takeIf (·.is .symbol text)

/-- Takes a keyword. -/
def keyword (text : String) : Read Unit := do
  let _ ← takeIf (·.is .keyword text)

/-- Takes a name that has a meaning only here. -/
def softKeyword (text : String) : Read Unit := do
  let _ ← takeIf (·.is .name text)

/-- Takes a layout token. -/
def layout (kind : TokenKind) : Read Unit := do
  let _ ← takeIf fun t => t.kind = kind

/-- Whether the next token is a symbol. -/
def atSymbol (text : String) : Read Bool := do return (← peek).is .symbol text

/-- Whether the next token is a keyword. -/
def atKeyword (text : String) : Read Bool := do return (← peek).is .keyword text

/-- Takes a name, in the form that all names that look like it share. -/
def name : Read String := do
  let t ← takeIf fun t => t.kind = .name
  pure (String.ofList (Text.normalized t.text))

/-- The place of the next token. -/
def here : Read Place := do return (← peek).first

/-- The end of the last token that was taken. -/
def lastPlace : Read Place := do return (← get).last

/-- The span from a place to the end of the last token. -/
def spanFrom (start : Place) : Read Span := do return start.spanTo (← lastPlace)

/-! ## Repetition -/

/-- Reads as often as it succeeds. -/
def manyFrom {α : Type} (p : Read α) (input : Input) : List α × Input :=
  match p input with
  | none => ([], input)
  | some (a, rest) =>
    if rest.left < input.left then
      let (as, rest) := manyFrom p rest
      (a :: as, rest)
    else ([a], rest)
termination_by input.left

/-- As many as there are, also none. -/
def many {α : Type} (p : Read α) : Read (List α) := fun input => some (manyFrom p input)

/-- As many as there are, at least one. -/
def many1 {α : Type} (p : Read α) : Read (List α) := do
  let first ← p
  return first :: (← many p)

/-- One, or none if it is not there. -/
def optional {α : Type} (p : Read α) : Read (Option α) := (some <$> p) <|> pure none

/-- Items with commas between them and maybe after the last: the items, and
whether a comma came last. -/
def commaList {α : Type} (item : Read α) : Read (List α × Bool) := do
  let first ← item
  let rest ← many (do symbol ","; item)
  let trailing ← optional (symbol ",")
  pure (first :: rest, trailing.isSome)

/-- Items with commas between them only. -/
def commaSeparated {α : Type} (item : Read α) : Read (List α) := do
  let first ← item
  let rest ← many (do symbol ","; item)
  pure (first :: rest)

end Read
end Reaching.Code
