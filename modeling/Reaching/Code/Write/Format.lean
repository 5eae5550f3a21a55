/-
The quotes around formatted texts.

Text parts of a formatted text may be escaped with backslashes, holes may not.
Quotes are chosen so that they appear in no part, in the order `'`, `"`,
three `"`, three `'`.
-/
import Reaching.Text.Quoted

namespace Reaching.Code.Write

/-- All quotes, preferred ones first. -/
def allQuotes : List (List Char) :=
  [['\''], ['"'], ['"', '"', '"'], ['\'', '\'', '\'']]

/-- Whether some characters occur next to each other in a text. -/
def occursIn (part : List Char) : List Char → Bool
  | [] => part.isEmpty
  | c :: rest => part.isPrefixOf (c :: rest) || occursIn part rest

/-- A code point inside quotes that are chosen not to need escaping. -/
def escapeUnquoted (escapeSpace : Bool) (c : CodePoint) : String :=
  if !escapeSpace && c = '\n' then "\n"
  else if !escapeSpace && c = '\t' then "\t"
  else Text.escape c

/-- The quote that a text takes when it has to be escaped like a literal. -/
def literalQuote (quotes : List (List Char)) (t : Text) : List Char :=
  let quote := Text.quoteFor t
  (quotes.find? fun q => q.contains quote).getD [quote]

/-- A text inside quotes, and which of some quotes may enclose it. If none may,
it is escaped like a literal and keeps one quote. -/
def fitQuotes (escapeSpace : Bool) (quotes : List (List Char)) (t : Text) :
    String × List (List Char) :=
  let escaped := (t.map (escapeUnquoted escapeSpace)).map String.toList |>.flatten
  let possible := if escaped.contains '\n' then quotes.filter fun q => q.length = 3 else quotes
  let possible := possible.filter fun q => !occursIn q escaped
  if possible.isEmpty then
    let literal := Text.quoted t
    (String.ofList ((literal.toList.drop 1).dropLast), [literalQuote quotes t])
  else match escaped.getLast? with
    | none => ("", possible)
    | some last =>
      let clashes := fun (q : List Char) => q.head? = some last
      let possible := possible.filter (fun q => !clashes q) ++ possible.filter clashes
      if possible.head?.any clashes then
        (String.ofList (escaped.dropLast ++ ['\\', last]), possible)
      else (String.ofList escaped, possible)

/-- A text in the first of some quotes. -/
def enclose (quotes : List (List Char)) (body : String) : String :=
  let quote := String.ofList (quotes.headD ['\''])
  quote ++ body ++ quote

/-- A text in quotes, with as few backslashes as possible. -/
def quotedPlainly (t : Text) : String :=
  let (body, quotes) := fitQuotes false allQuotes t
  enclose quotes body

/-- The parts of a formatted text in common quotes; a part that is plain text
may have its line breaks and tabs escaped. -/
def joinParts : List (List Char) → List (Text × Bool) → String × List (List Char)
  | quotes, [] => ("", quotes)
  | quotes, (t, isPlain) :: rest =>
    let (body, quotes) := fitQuotes isPlain quotes t
    let (more, quotes) := joinParts quotes rest
    (body ++ more, quotes)

/-- A text with its braces doubled. -/
def doubleBraces (t : Text) : Text :=
  t.flatMap fun (c : CodePoint) => if c = '\x7b' || c = '\x7d' then [c, c] else [c]

end Reaching.Code.Write
