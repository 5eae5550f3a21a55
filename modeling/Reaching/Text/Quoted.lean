/-
Texts and byte strings in quotes, the way a literal shows them.

The quote is `'`, unless the text holds `'` and no `"`. A printable character
stands for itself; any other one, and the half of a surrogate pair, is escaped.
-/
import Reaching.Text.CodePoint
import Reaching.Text.Printable

namespace Reaching.Text

/-- A number in lower-case hexadecimal, filled up to a width with zeros. -/
def hex (width n : Nat) : String :=
  let digits := Nat.toDigits 16 n
  String.ofList (List.replicate (width - digits.length) '0' ++ digits)

/-- A character by its code point: two, four or eight hexadecimal digits. -/
def escapeCode (n : Nat) : String :=
  if n ≤ 0xff then "\\x" ++ hex 2 n
  else if n ≤ 0xffff then "\\u" ++ hex 4 n
  else "\\U" ++ hex 8 n

/-- A character that no quote delimits, inside quotes. -/
def escapeChar (c : Char) : String :=
  if c = '\\' then "\\\\"
  else if c = '\n' then "\\n"
  else if c = '\t' then "\\t"
  else if c = '\r' then "\\r"
  else if isPrintable c then c.toString
  else escapeCode c.toNat

/-- A code point that no quote delimits, inside quotes. -/
def escape : CodePoint → String
  | .char c => escapeChar c
  | .half index => escapeCode (CodePoint.half index).number

/-- The quote that encloses a text. -/
def quoteFor (t : Text) : Char :=
  if t.contains (.char '\'') && !t.contains (.char '"') then '"' else '\''

/-- A text in quotes. -/
def quoted (t : Text) : String :=
  let quote := quoteFor t
  let body := t.map fun c => if c = .char quote then "\\" ++ quote.toString else escape c
  quote.toString ++ String.join body ++ quote.toString

/-- A text as it is told: a half of a surrogate pair, which no encoding takes, is told by its
escape. -/
def told (t : Text) : String :=
  String.join (t.map fun
    | .char c => c.toString
    | .half index => escapeCode (CodePoint.half index).number)

/-- One byte inside quotes. -/
def escapeByte (b : UInt8) : String :=
  let c := Char.ofNat b.toNat
  if c = '\\' then "\\\\"
  else if c = '\n' then "\\n"
  else if c = '\t' then "\\t"
  else if c = '\r' then "\\r"
  else if 0x20 ≤ b.toNat ∧ b.toNat < 0x7f then c.toString
  else "\\x" ++ hex 2 b.toNat

/-- A byte string in quotes, after the mark `b`. -/
def quotedBytes (bytes : List UInt8) : String :=
  let quote := quoteFor (ofChars (bytes.map fun b => Char.ofNat b.toNat))
  let body := bytes.map fun b =>
    if Char.ofNat b.toNat = quote then "\\" ++ quote.toString else escapeByte b
  "b" ++ quote.toString ++ String.join body ++ quote.toString

end Reaching.Text
