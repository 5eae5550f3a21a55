/-
Splitting source text into tokens.

A logical line may run over several lines inside brackets or after a
backslash. Its indentation is measured twice, with tabs as stops every eight
columns and with tabs as one column; both have to agree on whether it grows,
shrinks or stays. Lines that hold only blanks or a comment count for nothing.
-/
import Reaching.Code.Token
import Reaching.Text.Letters

namespace Reaching.Code

namespace Scan

/-! ## Lexemes

Each function splits a lexeme off the front of a text and leaves the rest. -/

/-- Two pieces with what comes after them. -/
abbrev Split := List Char × List Char

def isDigit (c : Char) : Bool := '0' ≤ c && c ≤ '9'

def isHexDigit (c : Char) : Bool :=
  isDigit c || ('a' ≤ c && c ≤ 'f') || ('A' ≤ c && c ≤ 'F')

/-- Whether a name or an unfinished one may contain a character. -/
def mayBeName (c : Char) : Bool := c.isAlphanum || c = '_' || 0x80 ≤ c.toNat

/-- Digits in groups with single underscores between them. -/
def digitGroups? (isDig : Char → Bool) : Nat → List Char → Option Split
  | 0, _ => none
  | fuel + 1, cs =>
    let (group, rest) := (cs.takeWhile isDig, cs.dropWhile isDig)
    if group.isEmpty then none
    else match rest with
      | '_' :: more =>
        (digitGroups? isDig fuel more).map fun (read, rest) => (group ++ '_' :: read, rest)
      | _ => some (group, rest)

def decimalTail? (cs : List Char) : Option Split := digitGroups? isDigit (cs.length + 1) cs

/-- The keywords that may stand directly after a number. -/
def mayFollowNumber : List String := ["and", "else", "for", "if", "in", "is", "not", "or"]

/-- Whether a number may end in front of a text. -/
def numberEnds (rest : List Char) : Bool :=
  match rest with
  | [] => true
  | c :: _ => !mayBeName c || mayFollowNumber.any fun w => w.toList.isPrefixOf rest

/-- A number that ends here, if it may. -/
def ended? (read rest : List Char) : Option Split :=
  if numberEnds rest then some (read, rest) else none

/-- The end of a number: the mark of an imaginary one, or nothing. -/
def imaginaryTail? (read rest : List Char) : Option Split :=
  match rest with
  | c :: more => if c = 'j' ∨ c = 'J' then ended? (read ++ [c]) more else ended? read rest
  | [] => ended? read rest

/-- An exponent, if there is one, and the end of the number. -/
def exponentTail? (read rest : List Char) : Option Split :=
  match rest with
  | e :: more =>
    if e = 'e' ∨ e = 'E' then
      match more with
      | s :: d :: _ =>
        if s = '+' ∨ s = '-' then
          if isDigit d then do
            let (digits, after) ← decimalTail? (more.drop 1)
            imaginaryTail? (read ++ e :: s :: digits) after
          else none
        else if isDigit s then do
          let (digits, after) ← decimalTail? more
          imaginaryTail? (read ++ e :: digits) after
        else ended? read rest
      | [s] =>
        if s = '+' ∨ s = '-' then none
        else if isDigit s then imaginaryTail? (read ++ [e, s]) []
        else ended? read rest
      | [] => ended? read rest
    else imaginaryTail? read rest
  | [] => ended? read rest

/-- A fraction after its point, and the rest of the number. -/
def fractionTail? (read rest : List Char) : Option Split :=
  match rest with
  | c :: _ =>
    if isDigit c then do
      let (digits, after) ← decimalTail? rest
      exponentTail? (read ++ digits) after
    else exponentTail? read rest
  | [] => some (read, [])

/-- A number in another base: its mark, then digits that may start with an
underscore. -/
def based? (isDig : Char → Bool) (mark : List Char) (rest : List Char) : Option Split := do
  let (lead, rest) := match rest with
    | '_' :: more => (['_'], more)
    | rest => ([], rest)
  let (digits, after) ← digitGroups? isDig (rest.length + 1) rest
  if after.head?.any isDigit then none else ended? (mark ++ lead ++ digits) after

/-- A number that starts with a digit. A whole number other than zero does not
start with zero. -/
def number? (cs : List Char) : Option Split :=
  match cs with
  | '0' :: c :: rest =>
    if c = 'x' ∨ c = 'X' then based? isHexDigit ['0', c] rest
    else if c = 'o' ∨ c = 'O' then based? (fun d => '0' ≤ d && d ≤ '7') ['0', c] rest
    else if c = 'b' ∨ c = 'B' then based? (fun d => d = '0' || d = '1') ['0', c] rest
    else decimal?
  | _ => decimal?
where
  decimal? : Option Split := do
    let (digits, rest) ← decimalTail? cs
    match rest with
    | '.' :: more => fractionTail? (digits ++ ['.']) more
    | rest =>
      let (read, after) ← exponentTail? digits rest
      let isWhole := read.length = digits.length
      if isWhole && cs.head? = some '0' && digits.any fun d => '1' ≤ d && d ≤ '9' then none
      else some (read, after)

/-- The letters that may stand in front of a string, in lower case. -/
def stringPrefixes : List String := ["r", "u", "b", "f", "br", "rb", "fr", "rf"]

/-- Whether letters are the mark of a string. -/
def isStringPrefix (cs : List Char) : Bool :=
  stringPrefixes.contains (String.ofList (cs.map Char.toLower))

/-- The letters in front of a string, if one starts here. -/
def stringStart? : List Char → Option (List Char)
  | c :: rest =>
    if c = '"' ∨ c = '\'' then some []
    else match rest with
      | d :: more =>
        if d = '"' ∨ d = '\'' then if isStringPrefix [c] then some [c] else none
        else match more with
          | e :: _ =>
            if (e = '"' ∨ e = '\'') ∧ isStringPrefix [c, d] then some [c, d] else none
          | [] => none
      | [] => none
  | [] => none

/-- The inside of a string with its closing quotes. A string in single quotes
ends on its line; a backslash takes the next character with it. -/
def stringTail? (quote : Char) (triple : Bool) : List Char → Option Split
  | [] => none
  | '\\' :: c :: rest => (stringTail? quote triple rest).map fun (s, r) => ('\\' :: c :: s, r)
  | c :: rest =>
    if c = quote then
      if triple then
        match rest with
        | d :: e :: more =>
          if d = quote ∧ e = quote then some ([c, d, e], more)
          else (stringTail? quote triple rest).map fun (s, r) => (c :: s, r)
        | _ => none
      else some ([c], rest)
    else if c = '\n' ∧ !triple then none
    else (stringTail? quote triple rest).map fun (s, r) => (c :: s, r)

/-- A string that starts with the letters `lead`. -/
def string? (lead cs : List Char) : Option Split :=
  match cs.drop lead.length with
  | a :: b :: c :: rest =>
    if a = b ∧ b = c then
      (stringTail? a true rest).map fun (s, r) => (lead ++ a :: b :: c :: s, r)
    else if a = b then some (lead ++ [a, b], c :: rest)
    else (stringTail? a false (b :: c :: rest)).map fun (s, r) => (lead ++ a :: s, r)
  | [a, b] => if a = b then some (lead ++ [a, b], []) else none
  | _ => none

/-- A name. Every character above ASCII counts as part of it; the name has to
be a proper one as a whole. -/
def name? (cs : List Char) : Option Split :=
  let (read, rest) := (cs.takeWhile mayBeName, cs.dropWhile mayBeName)
  match read with
  | [] => none
  | c :: more => if Text.startsName c ∧ more.all Text.continuesName then some (read, rest) else none

/-- A symbol. -/
def symbol? (cs : List Char) : Option Split :=
  (symbols.find? fun s => s.toList.isPrefixOf cs).map fun s => (s.toList, cs.drop s.length)

/-- The next lexeme of a text that starts with no blank. -/
def lexeme? (cs : List Char) : Option (TokenKind × Split) :=
  match stringStart? cs with
  | some lead => (string? lead cs).map fun s => (.string, s)
  | none =>
    match cs with
    | [] => none
    | c :: rest =>
      if isDigit c then (number? cs).map fun s => (.number, s)
      else if c = '.' && rest.head?.any isDigit then
        (fractionTail? ['.'] rest).map fun s => (.number, s)
      else if mayBeName c then
        (name? cs).map fun (read, rest) =>
          (if keywords.contains (String.ofList read) then .keyword else .name, read, rest)
      else (symbol? cs).map fun s => (.symbol, s)

/-! ## Lines -/

/-- An indentation, measured with tab stops and with tabs as one column. -/
structure Indentation where
  stops : Nat
  narrow : Nat
  deriving DecidableEq, Repr, Inhabited

def isBlank (c : Char) : Bool := c = ' ' || c = '\t' || c = '\x0c'

/-- The indentation at the start of a line, and the text from its first other
character on with its place. A backslash at the end of a line joins the next
one; the first column other than zero at which one stands is then the
indentation. -/
def indentation? (held : Nat) (i : Indentation) (place : Place) :
    List Char → Option (Indentation × Place × List Char)
  | ' ' :: rest => indentation? held ⟨i.stops + 1, i.narrow + 1⟩ (place.after [' ']) rest
  | '\t' :: rest =>
    indentation? held ⟨(i.stops / 8 + 1) * 8, i.narrow + 1⟩ (place.after ['\t']) rest
  | '\x0c' :: rest => indentation? held ⟨0, 0⟩ (place.after ['\x0c']) rest
  | '\\' :: '\n' :: c :: rest =>
    indentation? (if held = 0 then i.stops else held) i (place.after ['\\', '\n']) (c :: rest)
  | '\\' :: _ => none
  | rest => some (if held = 0 then i else ⟨held, held⟩, place, rest)

/-- The most levels of indentation, and of brackets. -/
def maxIndents : Nat := 100

def maxBrackets : Nat := 200

/-- The scanner between two tokens: where it stands, the indentations that are
open, innermost first, and the brackets that are. -/
structure State where
  place : Place
  indents : List Indentation
  brackets : List Char
  deriving Repr, Inhabited

def layout (kind : TokenKind) (place : Place) : Token := ⟨kind, [], place, place⟩

/-- Closes the indentations deeper than `i`: the levels that stay open and the
number of those that end. -/
def closeTo (i : Indentation) : List Indentation → List Indentation × Nat
  | [] => ([], 0)
  | top :: below =>
    if i.stops < top.stops then
      let (kept, n) := closeTo i below
      (kept, n + 1)
    else (top :: below, 0)

/-- The open indentations after a line with indentation `i` begins, and the
tokens that say so. -/
def indent? (i : Indentation) (place : Place) (open_ : List Indentation) :
    Option (List Indentation × List Token) :=
  let top := open_.headD ⟨0, 0⟩
  if i.stops = top.stops then if i.narrow = top.narrow then some (open_, []) else none
  else if top.stops < i.stops then
    if maxIndents ≤ open_.length + 1 ∨ i.narrow ≤ top.narrow then none
    else some (i :: open_, [layout .indent place])
  else
    let (kept, n) := closeTo i open_
    if kept.headD ⟨0, 0⟩ = i then some (kept, List.replicate n (layout .dedent place)) else none

/-- The bracket that closes another one. -/
def closing? : Char → Option Char
  | '(' => some ')'
  | '[' => some ']'
  | '\x7b' => some '\x7d'
  | _ => none

/-- The open brackets after a symbol. -/
def brackets? (symbol : List Char) (open_ : List Char) : Option (List Char) :=
  match symbol with
  | [c] =>
    match closing? c with
    | some d => if maxBrackets ≤ open_.length then none else some (d :: open_)
    | none =>
      if c = ')' ∨ c = ']' ∨ c = '\x7d' then
        match open_ with
        | top :: below => if top = c then some below else none
        | [] => none
      else some open_
  | _ => some open_

/-- The tokens of a text, in reverse in front of `read`. `fresh` says that a
line starts here. -/
def tokensFrom : Nat → Bool → State → List Token → List Char → Option (List Token)
  | 0, _, _, _, _ => none
  | fuel + 1, true, s, read, cs =>
    if s.brackets.isEmpty then
      match indentation? 0 ⟨0, 0⟩ s.place cs with
      | none => none
      | some (i, place, rest) =>
        match rest with
        | '#' :: _ =>
          let skipped := rest.takeWhile (· ≠ '\n')
          let after := place.after (skipped ++ ['\n'])
          tokensFrom fuel true ⟨after, s.indents, []⟩ read (rest.drop (skipped.length + 1))
        | '\n' :: more => tokensFrom fuel true ⟨place.after ['\n'], s.indents, []⟩ read more
        | rest =>
          match indent? i place s.indents with
          | none => none
          | some (indents, tokens) =>
            tokensFrom fuel false ⟨place, indents, []⟩ (tokens ++ read) rest
    else tokensFrom fuel false s read cs
  | fuel + 1, false, s, read, cs =>
    match cs with
    | [] => if s.brackets.isEmpty then some (layout .endOfText s.place :: read) else none
    | '\n' :: rest =>
      let after := s.place.after ['\n']
      if s.brackets.isEmpty then
        tokensFrom fuel true ⟨after, s.indents, []⟩ (layout .newline s.place :: read) rest
      else tokensFrom fuel true ⟨after, s.indents, s.brackets⟩ read rest
    | '#' :: _ =>
      let skipped := cs.takeWhile (· ≠ '\n')
      tokensFrom fuel false ⟨s.place.after skipped, s.indents, s.brackets⟩ read
        (cs.drop skipped.length)
    | '\\' :: '\n' :: c :: rest =>
      tokensFrom fuel false ⟨s.place.after ['\\', '\n'], s.indents, s.brackets⟩ read (c :: rest)
    | c :: rest =>
      if isBlank c then
        tokensFrom fuel false ⟨s.place.after [c], s.indents, s.brackets⟩ read rest
      else match lexeme? cs with
        | none => none
        | some (kind, text, rest) =>
          let after := s.place.after text
          let token : Token := ⟨kind, text, s.place, after⟩
          if kind = .symbol then
            match brackets? text s.brackets with
            | none => none
            | some brackets => tokensFrom fuel false ⟨after, s.indents, brackets⟩ (token :: read) rest
          else tokensFrom fuel false ⟨after, s.indents, s.brackets⟩ (token :: read) rest

end Scan

/-- The tokens of a text that starts at a place; none if it has no tokens. The
text is taken to end with a line break. -/
def tokens? (start : Place) (text : List Char) : Option (List Token) :=
  let text := if text.getLast? = some '\n' then text else text ++ ['\n']
  (Scan.tokensFrom (2 * text.length + 2) true ⟨start, [], []⟩ [] text).map List.reverse

end Reaching.Code
