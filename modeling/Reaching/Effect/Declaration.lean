/-
Declarations: definitions written inside string literals.

A literal that contains `"defs: [...]"` declares the names of a JSON list. The
list holds objects with a `name` and a `pos`, two pairs of a line and a column;
lines count from the first line of the literal and columns are absolute. A
literal whose list has any other shape declares nothing.

The list is taken apart step by step, and a step fails on a value that does not
have the parts it asks for. Texts and objects have parts too, characters and
keys, but these are texts and no numbers. A name may hold any code points.
-/
import Reaching.Code.Node
import Reaching.Definition
import Reaching.Json.Reader

namespace Reaching

open Code

namespace Declaration

/-- What stands in front of a list of definitions. -/
def opening : Text := "\"defs: "

/-- A text up to its last quote, without that quote. -/
def beforeLastQuote? (cs : Text) : Option Text :=
  match cs.reverse.dropWhile (· ≠ .char '"') with
  | [] => none
  | _ :: before => some before.reverse

/-- What an opening is followed by up to the last quote of the line, at the
first opening that has one. -/
def payload? : Text → Option Text
  | [] => none
  | c :: rest =>
    if opening.isPrefixOf (c :: rest) then
      match beforeLastQuote? (((c :: rest).drop opening.length).takeWhile (· ≠ .char '\n')) with
      | some found => some found
      | none => payload? rest
    else payload? rest

/-- A text with every backslash in front of a quote left out. -/
def unescapeQuotes : Text → Text
  | .char '\\' :: .char '"' :: rest => .char '"' :: unescapeQuotes rest
  | c :: rest => c :: unescapeQuotes rest
  | [] => []

/-- A number of a position, with whether it was given as a truth value. -/
def numberOf? : Json → Option (Int × Bool)
  | .int n => some (n, false)
  | .bool b => some (if b then 1 else 0, true)
  | _ => none

/-- A declared name with its position, lines counted from the literal's. -/
structure Declared where
  name : Text
  span : Span
  truths : TruthColumns
  deriving DecidableEq, Repr

/-- How a step can fail: on the content of a value, on its type, on a key, on a
place in a list, or in some other way. -/
inductive Failure where
  | value | type | key | index | other
  deriving DecidableEq, Repr

/-- The value of a key. Only objects have keys. -/
def member (key : Text) : Json → Except Failure Json
  | .obj members =>
    match Json.lookup members key with
    | some v => .ok v
    | none => .error .key
  | _ => .error .type

/-- The parts of a value. -/
def parts? : Json → Option (List Json)
  | .arr items => some items
  | .str text => some (text.map fun c => .str [c])
  | .obj members => some (members.map fun m => .str m.1)
  | _ => none

/-- The parts of a value that has two. -/
def pair (v : Json) : Except Failure (Json × Json) :=
  match parts? v with
  | some [a, b] => .ok (a, b)
  | some _ => .error .value
  | none => .error .type

/-- A value that is a text. -/
def textOf : Json → Except Failure Text
  | .str text => .ok text
  | _ => .error .type

/-- Two pairs of a line and a column. -/
def position (v : Json) : Except Failure (Span × TruthColumns) := do
  let (first, last) ← pair v
  let (startLine, startColumn) ← pair first
  let (endLine, endColumn) ← pair last
  match numberOf? startLine, numberOf? startColumn, numberOf? endLine, numberOf? endColumn with
  | some (l, _), some (c, startTruth), some (l', _), some (c', endTruth) =>
    .ok (⟨l, c, l', c'⟩, ⟨startTruth, endTruth⟩)
  | _, _, _, _ => .error .type

/-- The name that an object declares. -/
def declared (v : Json) : Except Failure Declared := do
  let name ← textOf (← member "name" v)
  let (span, truths) ← position (← member "pos" v)
  .ok ⟨name, span, truths⟩

/-- The names that a list of definitions declares. -/
def declarations (payload : Text) : Except Failure (List Declared) :=
  match Json.ofText (unescapeQuotes payload) with
  | .error _ => .error .value
  | .ok (.arr items) => items.mapM declared
  | .ok _ => .error .type

/-- What a text says. -/
inductive Reading where
  | absent
  | malformed (failure : Failure)
  | declares (list : List Declared)

/-- What a text says. -/
def read (text : Text) : Reading :=
  match payload? text with
  | none => .absent
  | some payload =>
    match declarations payload with
    | .error failure => .malformed failure
    | .ok list => .declares list

/-- A declared name as a definition, in a literal that starts on a line. -/
def Declared.definition (d : Declared) (line : Int) (owner : Stmt) : Definition :=
  { name := d.name
    span := ⟨line + d.span.firstLine, d.span.firstColumn, line + d.span.lastLine, d.span.lastColumn⟩
    kind := .declared
    owner := owner
    truths := d.truths }

/-- The definitions that one literal makes, and the lines of a literal that was
discarded. -/
def ofLiteral (text : Text) (line : Int) (owner : Stmt) : List Definition × List Int :=
  match read text with
  | .absent => ([], [])
  | .malformed _ => ([], [line])
  | .declares list => (list.map fun d => d.definition line owner, [])

end Declaration

/-- The text and the span of a string literal. -/
def Code.Node.literal? : Node → Option (Text × Span)
  | .expr (.at span (.constant (.text text _))) => some (text, span)
  | _ => none

/-- The string literals of a statement. -/
def Code.Stmt.literals (s : Stmt) : List (Text × Span) :=
  (Node.stmt s).breadthFirst.filterMap Node.literal?

/-- The definitions that the declarations in a statement make, and the lines of
the literals that were discarded. -/
def declaredDefinitions (s : Stmt) : Definitions × List Int :=
  let found := s.literals.map fun (text, span) => Declaration.ofLiteral text span.firstLine s
  (.ofList (found.flatMap (·.1)), found.flatMap (·.2))

end Reaching
