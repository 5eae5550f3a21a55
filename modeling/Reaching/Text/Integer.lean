/-
Integers in decimal. An integer of too many digits is neither read nor written.

What is read may have blanks on either side, a sign, and digits of any script with single
underscores between them.
-/
import Reaching.Text.Ranges

namespace Reaching.Text

/-- The zeros of the decimal digits of all scripts. The nine other digits of a
script follow its zero. -/
def digitZeros : List Nat :=
  [0x30, 0x660, 0x6f0, 0x7c0, 0x966, 0x9e6, 0xa66, 0xae6, 0xb66, 0xbe6, 0xc66, 0xce6, 0xd66, 0xde6,
    0xe50, 0xed0, 0xf20, 0x1040, 0x1090, 0x17e0, 0x1810, 0x1946, 0x19d0, 0x1a80, 0x1a90, 0x1b50,
    0x1bb0, 0x1c40, 0x1c50, 0xa620, 0xa8d0, 0xa900, 0xa9d0, 0xa9f0, 0xaa50, 0xabf0, 0xff10, 0x104a0,
    0x10d30, 0x11066, 0x110f0, 0x11136, 0x111d0, 0x112f0, 0x11450, 0x114d0, 0x11650, 0x116c0,
    0x11730, 0x118e0, 0x11950, 0x11c50, 0x11d50, 0x11da0, 0x16a60, 0x16ac0, 0x16b50, 0x1d7ce,
    0x1d7d8, 0x1d7e2, 0x1d7ec, 0x1d7f6, 0x1e140, 0x1e2f0, 0x1e950, 0x1fbf0]

/-- The value of a decimal digit. -/
def digitValue? (c : Char) : Option Nat :=
  (digitZeros.find? fun first => first ≤ c.toNat && c.toNat < first + 10).map (c.toNat - ·)

/-- Whether a character is a decimal digit. -/
def isDecimalDigit (c : Char) : Bool := (digitValue? c).isSome

/-- The longest integer that is read or written has this many digits. -/
def maxDigits : Nat := 4300

/-- Whether an integer has no more digits than that. -/
def IsShort (n : Int) : Prop := n.natAbs < Nat.pow 10 maxDigits

instance (n : Int) : Decidable (IsShort n) := inferInstanceAs (Decidable (_ < _))

/-- An integer as it is written. -/
def decimal? (n : Int) : Option String := if IsShort n then some (toString n) else none

/-- What is told of an integer that is not written. -/
def tooLong : String :=
  "Exceeds the limit (" ++ toString maxDigits ++ " digits) for integer string conversion; "
    ++ "use sys.set_int_max_str_digits() to increase the limit"

/-- The blanks around an integer: those of Unicode, but of ASCII only the space
and the controls from tab to carriage return. -/
def isBlankAroundInteger (c : Char) : Bool := isBlank c && !(0x1c ≤ c.toNat && c.toNat ≤ 0x1f)

/-- The values of digits with single underscores between them. -/
def digitValues? : List Char → Option (List Nat)
  | [] => none
  | [c] => (digitValue? c).map ([·])
  | c :: '_' :: rest => do some ((← digitValue? c) :: (← digitValues? rest))
  | c :: rest => do some ((← digitValue? c) :: (← digitValues? rest))

/-- The number that digits write. -/
def natural? (cs : List Char) : Option Nat := do
  let digits ← digitValues? cs
  if maxDigits < digits.length then none
  else some (digits.foldl (fun n d => n * 10 + d) 0)

/-- The integer that a text writes. -/
def integer? (text : String) : Option Int :=
  let inner := text.toList.dropWhile isBlankAroundInteger
  match (inner.reverse.dropWhile isBlankAroundInteger).reverse with
  | '-' :: cs => (natural? cs).map fun n => -(n : Int)
  | '+' :: cs => (natural? cs).map fun n => (n : Int)
  | cs => (natural? cs).map fun n => (n : Int)

end Reaching.Text
