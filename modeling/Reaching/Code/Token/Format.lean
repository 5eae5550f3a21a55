/-
Formatted texts split into text and holes.

A hole is an expression in braces, with an optional `=` that also shows the
expression as it was written, an optional conversion after `!`, and an
optional format after `:` which may hold holes of its own, one level deep.
-/
import Reaching.Code.Token.Value

namespace Reaching.Code.Format

/-- A part of a formatted text. The place of a hole is that of its opening
brace. -/
inductive Piece where
  | text (cs : Text)
  | hole (place : Place) (expression : List Char) (shown : Option (List Char))
      (conversion : Option Conversion) (spec : Option (List Piece))

/-- A stretch of text up to a brace: its characters, where it ends and what
follows. A doubled brace also ends it, when `top` allows that, and stands for
one brace; `again` then says that more text may follow at once. -/
structure Stretch where
  read : List Char
  again : Bool
  place : Place
  rest : List Char

/-- Whether a named character starts here, whose braces are no hole. -/
def isNamed (isRaw : Bool) : List Char → Bool
  | '\\' :: 'N' :: '\x7b' :: _ => !isRaw
  | _ => false

def stretch? (isRaw top : Bool) : Nat → Place → List Char → List Char → Option Stretch
  | 0, _, _, _ => none
  | _ + 1, place, read, [] => some ⟨read.reverse, false, place, []⟩
  | fuel + 1, place, read, c :: rest =>
    if isNamed isRaw (c :: rest) then
      let name := (rest.drop 2).takeWhile (· ≠ '\x7d')
      let piece := c :: rest.take (name.length + 3)
      stretch? isRaw top fuel (place.after piece) (piece.reverse ++ read) (rest.drop (name.length + 3))
    else if !isRaw && c = '\\' && rest.head?.any (fun d => d ≠ '\x7b' ∧ d ≠ '\x7d') then
      let piece := c :: rest.take 1
      stretch? isRaw top fuel (place.after piece) (piece.reverse ++ read) (rest.drop 1)
    else if c = '\x7b' ∨ c = '\x7d' then
      if top then
        if rest.head? = some c then
          some ⟨(c :: read).reverse, true, place.after [c, c], rest.drop 1⟩
        else if c = '\x7d' then none
        else some ⟨read.reverse, false, place, c :: rest⟩
      else some ⟨read.reverse, false, place, c :: rest⟩
    else stretch? isRaw top fuel (place.after [c]) (c :: read) rest

/-- Whether two brackets belong together. -/
def closes (left right : Char) : Bool :=
  (left = '(' && right = ')') || (left = '[' && right = ']') || (left = '\x7b' && right = '\x7d')

/-- The expression of a hole: its characters and what follows, from the
character that ends it. `quote` is the quote of the string that is open, with
whether it is a triple one; `opened` are the open brackets. -/
def expression? : Nat → Option (Char × Bool) → List Char → List Char → List Char →
    Option (List Char × List Char)
  | 0, _, _, _, _ => none
  | _ + 1, _, _, _, [] => none
  | fuel + 1, quote, opened, read, c :: rest =>
    if c = '\\' then none
    else match quote with
      | some (q, triple) =>
        if c = q then
          if triple then
            match rest with
            | d :: e :: more =>
              if d = q ∧ e = q then expression? fuel none opened (e :: d :: c :: read) more
              else expression? fuel quote opened (c :: read) rest
            | _ => expression? fuel quote opened (c :: read) rest
          else expression? fuel none opened (c :: read) rest
        else expression? fuel quote opened (c :: read) rest
      | none =>
        if c = '"' ∨ c = '\'' then
          match rest with
          | d :: e :: more =>
            if d = c ∧ e = c then expression? fuel (some (c, true)) opened (e :: d :: c :: read) more
            else expression? fuel (some (c, false)) opened (c :: read) rest
          | _ => expression? fuel (some (c, false)) opened (c :: read) rest
        else if c = '[' ∨ c = '\x7b' ∨ c = '(' then
          expression? fuel none (c :: opened) (c :: read) rest
        else if c = '#' then none
        else if opened.isEmpty && ['!', ':', '\x7d', '=', '<', '>'].contains c then
          if rest.head? = some '=' && ['!', '=', '<', '>'].contains c then
            expression? fuel none opened ('=' :: c :: read) (rest.drop 1)
          else if c = '<' ∨ c = '>' then expression? fuel none opened (c :: read) rest
          else some (read.reverse, c :: rest)
        else if c = ']' ∨ c = '\x7d' ∨ c = ')' then
          match opened with
          | left :: below =>
            if closes left c then expression? fuel none below (c :: read) rest else none
          | [] => none
        else expression? fuel none opened (c :: read) rest

def isSpace (c : Char) : Bool :=
  c = ' ' || c = '\t' || c = '\n' || c = '\r' || c = '\x0b' || c = '\x0c'

def conversion? : Char → Option Conversion
  | 's' => some .str
  | 'r' => some .repr
  | 'a' => some .ascii
  | _ => none

/-- The deepest level at which a hole may stand. -/
def maxLevel : Nat := 1

mutual

/-- The pieces of a formatted text from `cs` on, and what is left: nothing at
level 0, the text from a closing brace on inside a format. -/
def pieces? (isRaw : Bool) : Nat → Nat → Place → List Char →
    Option (List Piece × Place × List Char)
  | 0, _, _, _ => none
  | fuel + 1, level, place, cs => do
    let s ← stretch? isRaw (level = 0) (cs.length + 1) place [] cs
    let text ← textOfBody? isRaw s.read
    if s.again then
      let (more, place, rest) ← pieces? isRaw fuel level s.place s.rest
      some (.text text :: more, place, rest)
    else match s.rest with
      | '\x7b' :: _ =>
        let (hole, place, rest) ← hole? isRaw fuel level s.place s.rest
        let (more, place, rest) ← pieces? isRaw fuel level place rest
        some (.text text :: hole :: more, place, rest)
      | rest => some ([.text text], s.place, rest)

/-- A hole, from its opening brace on. -/
def hole? (isRaw : Bool) : Nat → Nat → Place → List Char → Option (Piece × Place × List Char)
  | 0, _, _, _ => none
  | fuel + 1, level, start, cs => do
    if maxLevel < level then none
    let inside := cs.drop 1
    let (expression, rest) ← expression? (inside.length + 1) none [] [] inside
    if expression.all fun c => c = ' ' || c = '\t' || c = '\n' || c = '\x0c' then none
    let place := start.after (cs.take (1 + expression.length))
    let (shown, place, rest) := match rest with
      | '=' :: more =>
        let space := more.takeWhile isSpace
        (some (expression ++ '=' :: space), place.after ('=' :: space), more.drop space.length)
      | rest => (none, place, rest)
    let (conversion, place, rest) ← match rest with
      | '!' :: c :: more => do
        let conversion ← conversion? c
        some (some conversion, place.after ['!', c], more)
      | '!' :: [] => none
      | rest => some (none, place, rest)
    let (spec, place, rest) ← match rest with
      | ':' :: more => do
        if more.isEmpty then none
        let (spec, place, rest) ← pieces? isRaw fuel (level + 1) (place.after [':']) more
        some (some spec, place, rest)
      | rest => some (none, place, rest)
    match rest with
    | '\x7d' :: more =>
      let conversion := match shown, conversion, spec with
        | some _, none, none => some Conversion.repr
        | _, conversion, _ => conversion
      some (.hole start expression shown conversion spec, place.after ['\x7d'], more)
    | _ => none

end

end Format

/-- The pieces of a formatted text. -/
def StringParts.pieces? (s : StringParts) : Option (List Format.Piece) := do
  let (pieces, _, rest) ← Format.pieces? s.isRaw (2 * s.body.length + 2) 0 s.first s.body
  if rest.isEmpty then some pieces else none

end Reaching.Code
