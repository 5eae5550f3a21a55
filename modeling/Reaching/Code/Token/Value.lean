/-
The values of number and string tokens.
-/
import Reaching.Code.Expr
import Reaching.Code.Token
import Reaching.Json.Reader

namespace Reaching.Code

/-! ## Numbers -/

/-- The number that digits of a base stand for. -/
def natOfBase (base : Nat) (digits : List Char) : Nat :=
  digits.foldl (fun n c => n * base + ((Json.hexDigit? c).getD 0)) 0

/-- A decimal with a fraction or an exponent: its digits and its power of ten. -/
def decimalParts (cs : List Char) : Nat × Int :=
  let whole := cs.takeWhile Json.isDigit
  let rest := cs.dropWhile Json.isDigit
  let (decimals, rest) := match rest with
    | '.' :: more => (more.takeWhile Json.isDigit, more.dropWhile Json.isDigit)
    | rest => ([], rest)
  let exponent := (Json.exponent? (Text.ofChars rest)).map (·.1) |>.getD 0
  (Json.natOf (whole ++ decimals), exponent - decimals.length)

/-- A number that is not an integer. -/
def floatOf (cs : List Char) : Binary64 :=
  let (digits, scale) := decimalParts cs
  Binary64.ofDecimal false digits scale

/-- The value of a number token; none for a decimal integer that is too long. -/
def numberValue? (text : List Char) : Option Literal :=
  let cs := text.filter (· ≠ '_')
  match cs with
  | '0' :: c :: digits =>
    if c = 'x' ∨ c = 'X' then some (.int (natOfBase 16 digits))
    else if c = 'o' ∨ c = 'O' then some (.int (natOfBase 8 digits))
    else if c = 'b' ∨ c = 'B' then some (.int (natOfBase 2 digits))
    else decimal? cs
  | cs => decimal? cs
where
  decimal? (cs : List Char) : Option Literal :=
    if cs.any fun c => c = 'j' || c = 'J' then some (.imaginary (floatOf cs))
    else if cs.all Json.isDigit then
      if Json.maxIntDigits < cs.length then none else some (.int (Json.natOf cs))
    else some (.float (floatOf cs))

/-! ## Strings -/

/-- A string token taken apart. `first` is the place of its first character
after the opening quotes. -/
structure StringParts where
  isRaw : Bool
  isBytes : Bool
  isFormatted : Bool
  isMarked : Bool
  first : Place
  body : List Char
  deriving Repr

/-- The parts of a string token. -/
def Token.stringParts (t : Token) : StringParts :=
  let lead := t.text.takeWhile fun c => c ≠ '"' ∧ c ≠ '\''
  let letters := lead.map Char.toLower
  let quoted := t.text.drop lead.length
  let width := match quoted with
    | a :: b :: c :: _ :: _ :: _ => if a = b ∧ b = c then 3 else 1
    | _ => 1
  { isRaw := letters.contains 'r'
    isBytes := letters.contains 'b'
    isFormatted := letters.contains 'f'
    isMarked := lead.head? = some 'u'
    first := t.first.after (t.text.take (lead.length + width))
    body := (quoted.drop width).take (quoted.length - 2 * width) }

def isOctal (c : Char) : Bool := '0' ≤ c && c ≤ '7'

/-- Up to three octal digits at the start of a text. -/
def octalCode (cs : List Char) : Nat × List Char :=
  let digits := (cs.take 3).takeWhile isOctal
  (natOfBase 8 digits, cs.drop digits.length)

/-- Exactly `n` hexadecimal digits. -/
def hexCode? (n : Nat) (cs : List Char) : Option (Nat × List Char) :=
  let digits := cs.take n
  if digits.length = n ∧ digits.all fun c => (Json.hexDigit? c).isSome then
    some (natOfBase 16 digits, cs.drop n)
  else none

/-- The code of a one-letter escape. -/
def letterEscape? : Char → Option Nat
  | '\\' => some 0x5c
  | '\'' => some 0x27
  | '"' => some 0x22
  | 'a' => some 0x07
  | 'b' => some 0x08
  | 'f' => some 0x0c
  | 'n' => some 0x0a
  | 'r' => some 0x0d
  | 't' => some 0x09
  | 'v' => some 0x0b
  | _ => none

/-- The codes of the characters of a string body with its escapes resolved.
An escape that means nothing keeps its backslash. Escapes by code point and by
name belong to texts only. -/
def unescape? (isText : Bool) : Nat → List Char → Option (List Nat)
  | 0, _ => none
  | _ + 1, [] => some []
  | fuel + 1, '\\' :: c :: rest =>
    if c = '\n' then unescape? isText fuel rest
    else match letterEscape? c with
      | some n => (unescape? isText fuel rest).map (n :: ·)
      | none =>
        if isOctal c then
          let (n, after) := octalCode (c :: rest)
          (unescape? isText fuel after).map ((if isText then n else n % 256) :: ·)
        else if c = 'x' then do
          let (n, after) ← hexCode? 2 rest
          (unescape? isText fuel after).map (n :: ·)
        else if isText && (c = 'u' || c = 'U') then do
          let (n, after) ← hexCode? (if c = 'u' then 4 else 8) rest
          if 0x10ffff < n then none else (unescape? isText fuel after).map (n :: ·)
        else if isText && c = 'N' then
          match rest with
          | '\x7b' :: more =>
            let after := more.dropWhile (· ≠ '\x7d')
            if after.isEmpty || more.head? = some '\x7d' then none
            else (unescape? isText fuel (after.drop 1)).map (0xfffd :: ·)
          | _ => none
        else (unescape? isText fuel rest).map fun read => 0x5c :: c.toNat :: read
  | fuel + 1, c :: rest => (unescape? isText fuel rest).map (c.toNat :: ·)

/-- The text of a string body. -/
def textOfBody? (isRaw : Bool) (body : List Char) : Option Text :=
  if isRaw then some (Text.ofChars body)
  else (unescape? true (body.length + 1) body).map (·.map CodePoint.ofNumber)

/-- The bytes of a string body, which holds ASCII only. -/
def bytesOfBody? (isRaw : Bool) (body : List Char) : Option (List UInt8) :=
  if body.any fun c => 0x80 ≤ c.toNat then none
  else if isRaw then some (body.map fun c => UInt8.ofNat c.toNat)
  else (unescape? false (body.length + 1) body).map (·.map UInt8.ofNat)

end Reaching.Code
