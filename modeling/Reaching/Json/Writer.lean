/-
Writing JSON text in ASCII: compact, or indented by two spaces a level.

There is no limit on the digits of an integer here. What is written is a result,
and its integers are lines of source, lines of spans that have a key, and
numbers that were read from arguments; none of these has too many digits.
-/
import Reaching.Json.Value

namespace Reaching.Json

/-- A UTF-16 unit as an escape. -/
def escapeUnit (n : Nat) : String := "\\u" ++ Text.hex 4 n

/-- One character of a string. -/
def writeCharacter (c : Char) : String :=
  let n := c.toNat
  if c = '"' then "\\\""
  else if c = '\\' then "\\\\"
  else if c = '\n' then "\\n"
  else if c = '\r' then "\\r"
  else if c = '\t' then "\\t"
  else if c = '\x0c' then "\\f"
  else if c = '\x08' then "\\b"
  else if 0x20 ≤ n ∧ n < 0x7f then c.toString
  else if n ≤ 0xffff then escapeUnit n
  else escapeUnit (0xd800 + (n - 0x10000) / 0x400) ++ escapeUnit (0xdc00 + (n - 0x10000) % 0x400)

/-- One code point of a string. -/
def writeChar : CodePoint → String
  | .char c => writeCharacter c
  | .half index => escapeUnit (CodePoint.half index).number

/-- A string in quotes. -/
def writeString (s : Text) : String :=
  "\"" ++ String.join (s.map writeChar) ++ "\""

/-- Numbers in JSON notation. -/
def numberForm : Decimal.Form := ⟨".0", "Infinity", "NaN"⟩

/-- A line break and the indentation of a level; nothing in compact text. -/
def lineBreak (indent : Option Nat) : String :=
  match indent with
  | none => ""
  | some level => "\n" ++ "".pushn ' ' (2 * level)

/-- The separator of items on one level. -/
def itemSeparator (indent : Option Nat) : String :=
  match indent with
  | none => ", "
  | some _ => "," ++ lineBreak indent

mutual

/-- A value; `indent` is the level it stands on, none for compact text. -/
def write (indent : Option Nat) : Json → String
  | .null => "null"
  | .bool b => if b then "true" else "false"
  | .int n => toString n
  | .float x => Decimal.text numberForm x
  | .str s => writeString s
  | .arr [] => "[]"
  | .arr (v :: rest) =>
    let inner := indent.map (· + 1)
    "[" ++ lineBreak inner ++ (itemSeparator inner).intercalate (writeItems inner (v :: rest))
      ++ lineBreak indent ++ "]"
  | .obj [] => "\x7b\x7d"
  | .obj (m :: rest) =>
    let inner := indent.map (· + 1)
    "\x7b" ++ lineBreak inner ++ (itemSeparator inner).intercalate (writeMembers inner (m :: rest))
      ++ lineBreak indent ++ "\x7d"

def writeItems (indent : Option Nat) : List Json → List String
  | [] => []
  | v :: rest => write indent v :: writeItems indent rest

def writeMembers (indent : Option Nat) : List (Text × Json) → List String
  | [] => []
  | (k, v) :: rest => (writeString k ++ ": " ++ write indent v) :: writeMembers indent rest

end

/-- A value on one line. -/
def compact (v : Json) : String := write none v

/-- A value over several lines, indented by two spaces a level. -/
def indented (v : Json) : String := write (some 0) v

end Reaching.Json
