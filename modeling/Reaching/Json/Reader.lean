/-
Reading JSON text.

White space is space, tab, line feed and carriage return. `NaN`, `Infinity`
and `-Infinity` are numbers; a number with a fraction or an exponent is never
an integer. Of repeated keys the last value counts. An error says what was
expected and where; places are counted in characters.
-/
import Reaching.Json.Value

namespace Reaching.Json

/-- Why a text is not JSON. -/
inductive Fault where
  | byteOrderMark
  | expectingValue
  | expectingName
  | expectingColon
  | expectingComma
  | extraData
  | unterminatedString
  | controlCharacter
  | badEscape
  | badUnicodeEscape
  deriving DecidableEq, Repr

/-- The text of a fault, without its place. -/
def Fault.reason : Fault → String
  | .byteOrderMark => "Unexpected UTF-8 BOM (decode using utf-8-sig)"
  | .expectingValue => "Expecting value"
  | .expectingName => "Expecting property name enclosed in double quotes"
  | .expectingColon => "Expecting ':' delimiter"
  | .expectingComma => "Expecting ',' delimiter"
  | .extraData => "Extra data"
  | .unterminatedString => "Unterminated string starting at"
  | .controlCharacter => "Invalid control character at"
  | .badEscape => "Invalid \\escape"
  | .badUnicodeEscape => "Invalid \\uXXXX escape"

/-- Why reading stopped. A fault stands at the character that has `left`
characters from itself to the end; an integer may have too many digits. -/
inductive Stop where
  | fault (fault : Fault) (left : Nat)
  | tooManyDigits (count : Nat)
  deriving DecidableEq, Repr

/-- A fault in front of the characters `rest`. -/
def failAt {α : Type} (fault : Fault) (rest : Text) : Except Stop α :=
  .error (.fault fault rest.length)

def isSpace : CodePoint → Bool :=
  CodePoint.isChar fun c => c = ' ' || c = '\t' || c = '\n' || c = '\r'

def skipSpace (cs : Text) : Text := cs.dropWhile isSpace

/-! ## Strings -/

def hexDigit? (c : Char) : Option Nat :=
  if '0' ≤ c ∧ c ≤ '9' then some (c.toNat - '0'.toNat)
  else if 'a' ≤ c ∧ c ≤ 'f' then some (c.toNat - 'a'.toNat + 10)
  else if 'A' ≤ c ∧ c ≤ 'F' then some (c.toNat - 'A'.toNat + 10)
  else none

/-- Four hexadecimal digits with a code point after them. -/
def hexFour? : Text → Option (Nat × Text)
  | .char a :: .char b :: .char c :: .char d :: next :: rest => do
    let a ← hexDigit? a
    let b ← hexDigit? b
    let c ← hexDigit? c
    let d ← hexDigit? d
    some (((a * 16 + b) * 16 + c) * 16 + d, next :: rest)
  | _ => none

def isHighSurrogate (n : Nat) : Bool := 0xd800 ≤ n && n ≤ 0xdbff

def isLowSurrogate (n : Nat) : Bool := 0xdc00 ≤ n && n ≤ 0xdfff

def joinSurrogates (high low : Nat) : Nat := 0x10000 + (high - 0xd800) * 0x400 + (low - 0xdc00)

/-- The character that a one-letter escape stands for. -/
def simpleEscape? : CodePoint → Option CodePoint
  | .char '"' => some (.char '"')
  | .char '\\' => some (.char '\\')
  | .char '/' => some (.char '/')
  | .char 'b' => some (.char '\x08')
  | .char 'f' => some (.char '\x0c')
  | .char 'n' => some (.char '\n')
  | .char 'r' => some (.char '\r')
  | .char 't' => some (.char '\t')
  | _ => none

/-- The rest of a string up to its closing quote, its code points in reverse
in front of `read`. `start` is the text from the opening quote on. The escapes of
two halves of a pair, one right behind the other, are one character; any other
half stands for itself. -/
def readString (start : Text) : Nat → Text → Text → Except Stop (Text × Text)
  | 0, _, _ => failAt .unterminatedString start
  | _ + 1, _, [] => failAt .unterminatedString start
  | fuel + 1, read, .char '"' :: rest => let _ := fuel; .ok (read.reverse, rest)
  | _ + 1, _, [.char '\\'] => failAt .unterminatedString start
  | fuel + 1, read, .char '\\' :: .char 'u' :: rest =>
    match hexFour? rest with
    | none => failAt .badUnicodeEscape (.char 'u' :: rest)
    | some (n, after) =>
      match isHighSurrogate n, after with
      | true, .char '\\' :: .char 'u' :: more =>
        if more.length < 5 then readString start fuel (.ofNumber n :: read) after
        else match hexFour? more with
          | none => failAt .badUnicodeEscape (.char 'u' :: more)
          | some (m, beyond) =>
            if isLowSurrogate m then
              readString start fuel (.ofNumber (joinSurrogates n m) :: read) beyond
            else readString start fuel (.ofNumber n :: read) after
      | _, _ => readString start fuel (.ofNumber n :: read) after
  | fuel + 1, read, .char '\\' :: c :: rest =>
    match simpleEscape? c with
    | none => failAt .badEscape (.char '\\' :: c :: rest)
    | some d => readString start fuel (d :: read) rest
  | fuel + 1, read, c :: rest =>
    if c.number ≤ 0x1f then failAt .controlCharacter (c :: rest)
    else readString start fuel (c :: read) rest

/-! ## Numbers -/

def isDigit (c : Char) : Bool := '0' ≤ c && c ≤ '9'

def natOf (digits : List Char) : Nat :=
  digits.foldl (fun n c => n * 10 + (c.toNat - '0'.toNat)) 0

/-- The digits at the front of a text, and what follows them. -/
def digits : Text → List Char × Text
  | .char c :: rest =>
    if isDigit c then (c :: (digits rest).1, (digits rest).2) else ([], .char c :: rest)
  | rest => ([], rest)

/-- The digits in front of an integer or a number: a zero, or digits that do
not start with one. -/
def wholeDigits? : Text → Option (List Char × Text)
  | .char '0' :: rest => some (['0'], rest)
  | cs => if (digits cs).1 = [] then none else some (digits cs)

/-- A point with digits after it. -/
def fraction? : Text → Option (List Char × Text)
  | .char '.' :: rest => if (digits rest).1 = [] then none else some (digits rest)
  | _ => none

/-- The digits of an exponent, with its sign. -/
def exponentDigits (negative : Bool) (cs : Text) : Option (Int × Text) :=
  match digits cs with
  | ([], _) => none
  | (found, rest) =>
    let n : Int := natOf found
    some (if negative then -n else n, rest)

/-- An exponent. -/
def exponent? : Text → Option (Int × Text)
  | e :: rest =>
    if e = 'e' ∨ e = 'E' then
      match rest with
      | .char '+' :: more => exponentDigits false more
      | .char '-' :: more => exponentDigits true more
      | more => exponentDigits false more
    else none
  | [] => none

/-- The most digits that an integer may have. -/
def maxIntDigits : Nat := Text.maxDigits

/-- A number after its sign. `start` is the text from the sign on. -/
def readNumber (start : Text) (negative : Bool) (cs : Text) : Except Stop (Json × Text) :=
  match wholeDigits? cs with
  | none => failAt .expectingValue start
  | some (whole, afterWhole) =>
    let (decimals, afterFraction, hasFraction) :=
      match fraction? afterWhole with
      | some (ds, rest) => (ds, rest, true)
      | none => ([], afterWhole, false)
    match exponent? afterFraction with
    | some (e, rest) =>
      .ok (.float (Binary64.ofDecimal negative (natOf (whole ++ decimals)) (e - decimals.length)),
        rest)
    | none =>
      if hasFraction then
        .ok (.float (Binary64.ofDecimal negative (natOf (whole ++ decimals)) (-decimals.length)),
          afterFraction)
      else if maxIntDigits < whole.length then .error (.tooManyDigits whole.length)
      else
        let n : Int := natOf whole
        .ok (.int (if negative then -n else n), afterFraction)

/-! ## Values -/

/-- A word at the start of a text, and what follows it. -/
def word? (word : String) (cs : Text) : Option Text :=
  if (Text.ofString word).isPrefixOf cs then some (cs.drop word.length) else none

/-- The words that are values. -/
def words : List (String × Json) :=
  [("null", .null), ("true", .bool true), ("false", .bool false),
    ("NaN", .float .notANumber), ("Infinity", .float (.infinite false)),
    ("-Infinity", .float (.infinite true))]

def readWord? (cs : Text) : Option (Json × Text) :=
  words.findSome? fun (word, value) => (word? word cs).map fun rest => (value, rest)

mutual

/-- A value and the text after it. -/
def readValue : Nat → Text → Except Stop (Json × Text)
  | 0, cs => failAt .expectingValue cs
  | fuel + 1, cs =>
    match cs with
    | [] => failAt .expectingValue []
    | .char '"' :: rest => do
      let (s, rest) ← readString (.char '"' :: rest) (rest.length + 1) [] rest
      .ok (.str s, rest)
    | .char '\x7b' :: rest =>
      match skipSpace rest with
      | .char '\x7d' :: rest => .ok (.obj [], rest)
      | rest => readMembers fuel [] rest
    | .char '[' :: rest =>
      match skipSpace rest with
      | .char ']' :: rest => .ok (.arr [], rest)
      | rest => readItems fuel [] rest
    | c :: rest =>
      match readWord? (c :: rest) with
      | some found => .ok found
      | none =>
        if c = '-' then readNumber (c :: rest) true rest else readNumber (c :: rest) false (c :: rest)

/-- The items of an array from the next one on; `read` holds those before it
in reverse. -/
def readItems : Nat → List Json → Text → Except Stop (Json × Text)
  | 0, _, cs => failAt .expectingValue cs
  | fuel + 1, read, cs => do
    let (v, rest) ← readValue fuel cs
    match skipSpace rest with
    | .char ']' :: rest => .ok (.arr (v :: read).reverse, rest)
    | .char ',' :: rest => readItems fuel (v :: read) (skipSpace rest)
    | rest => failAt .expectingComma rest

/-- The members of an object from the next one on. -/
def readMembers : Nat → List (Text × Json) → Text → Except Stop (Json × Text)
  | 0, _, cs => failAt .expectingValue cs
  | fuel + 1, members, cs =>
    match cs with
    | .char '"' :: rest => do
      let (key, rest) ← readString (.char '"' :: rest) (rest.length + 1) [] rest
      match skipSpace rest with
      | .char ':' :: rest => do
        let (v, rest) ← readValue fuel (skipSpace rest)
        let members := putMember members key v
        match skipSpace rest with
        | .char '\x7d' :: rest => .ok (.obj members, rest)
        | .char ',' :: rest => readMembers fuel members (skipSpace rest)
        | rest => failAt .expectingComma rest
      | rest => failAt .expectingColon rest
    | rest => failAt .expectingName rest

end

/-! ## Whole texts -/

/-- Why a text is not JSON, with the character at which that shows. -/
inductive ReadError where
  | fault (fault : Fault) (line column offset : Nat)
  | tooManyDigits (count : Nat)
  deriving DecidableEq, Repr

/-- The text of a read error. -/
def ReadError.message : ReadError → String
  | .fault f line column offset =>
    s!"{f.reason}: line {line} column {column} (char {offset})"
  | .tooManyDigits count =>
    s!"Exceeds the limit ({maxIntDigits} digits) for integer string conversion: "
      ++ s!"value has {count} digits; use sys.set_int_max_str_digits() to increase the limit"

/-- A fault at the character number `offset` of a text. -/
def faultAt (f : Fault) (text : Text) (offset : Nat) : ReadError :=
  let before := text.take offset
  .fault f (before.count (.char '\n') + 1) ((before.reverse.takeWhile (· ≠ .char '\n')).length + 1) offset

/-- The value that a whole text stands for. -/
def ofText (cs : Text) : Except ReadError Json :=
  let located : Stop → ReadError
    | .fault f left => faultAt f cs (cs.length - left)
    | .tooManyDigits count => .tooManyDigits count
  match cs with
  | .char '\ufeff' :: _ => .error (faultAt .byteOrderMark cs 0)
  | _ =>
    match readValue (2 * cs.length + 2) (skipSpace cs) with
    | .error e => .error (located e)
    | .ok (v, rest) =>
      match skipSpace rest with
      | [] => .ok v
      | rest => .error (located (.fault .extraData rest.length))

end Reaching.Json
