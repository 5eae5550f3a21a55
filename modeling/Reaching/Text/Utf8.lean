/-
Reading bytes as UTF-8 text.

A character is a lead byte and the continuation bytes that it calls for. Some
lead bytes narrow the range of the first continuation byte, so that every
character has one form and no surrogate has any. Where the bytes stop being
UTF-8, the error names the bytes of the character that was begun.
-/
namespace Reaching.Text

/-- What a lead byte calls for: the number of continuation bytes, the range of
the first one, and the bits that the lead byte gives. -/
structure Utf8Lead where
  count : Nat
  low : Nat := 0x80
  high : Nat := 0xbf
  bits : Nat
  deriving DecidableEq, Repr

/-- What a byte calls for, if a character can begin with it. -/
def Utf8Lead.of? (byte : UInt8) : Option Utf8Lead :=
  let b := byte.toNat
  if b < 0x80 then some { count := 0, bits := b }
  else if b < 0xc2 then none
  else if b < 0xe0 then some { count := 1, bits := b - 0xc0 }
  else if b = 0xe0 then some { count := 2, low := 0xa0, bits := 0 }
  else if b = 0xed then some { count := 2, high := 0x9f, bits := 0xd }
  else if b < 0xf0 then some { count := 2, bits := b - 0xe0 }
  else if b = 0xf0 then some { count := 3, low := 0x90, bits := 0 }
  else if b < 0xf4 then some { count := 3, bits := b - 0xf0 }
  else if b = 0xf4 then some { count := 3, high := 0x8f, bits := 4 }
  else none

/-- Why bytes are not UTF-8. -/
inductive Utf8Fault where
  | badStart
  | badContinuation
  | endsEarly
  deriving DecidableEq, Repr

def Utf8Fault.reason : Utf8Fault → String
  | .badStart => "invalid start byte"
  | .badContinuation => "invalid continuation byte"
  | .endsEarly => "unexpected end of data"

/-- Where bytes are not UTF-8: the place of the character that was begun, its
lead byte, and how many continuation bytes were read after it. -/
structure Utf8Error where
  fault : Utf8Fault
  position : Nat
  lead : UInt8
  continued : Nat
  deriving DecidableEq, Repr

/-- The text of an error: one byte is shown, several are only placed. -/
def Utf8Error.message (e : Utf8Error) : String :=
  let place :=
    if e.continued = 0 then
      "byte 0x" ++ hexByte e.lead ++ " in position " ++ toString e.position
    else "bytes in position " ++ toString e.position ++ "-" ++ toString (e.position + e.continued)
  "'utf-8' codec can't decode " ++ place ++ ": " ++ e.fault.reason
where
  hexByte (b : UInt8) : String :=
    String.ofList ((Nat.toDigits 16 (b.toNat / 16)) ++ Nat.toDigits 16 (b.toNat % 16))

/-- Adds `count` continuation bytes to the bits of a code point, the first of
them in a range. An error holds the number of bytes that were read. -/
def utf8Continue (low high : Nat) : Nat → Nat → List UInt8 → Except (Utf8Fault × Nat) Nat
  | 0, bits, _ => .ok bits
  | _ + 1, _, [] => .error (.endsEarly, 0)
  | count + 1, bits, b :: rest =>
    if low ≤ b.toNat ∧ b.toNat ≤ high then
      match utf8Continue 0x80 0xbf count (bits * 0x40 + (b.toNat - 0x80)) rest with
      | .ok code => .ok code
      | .error (fault, read) => .error (fault, read + 1)
    else .error (.badContinuation, 0)

/-- The characters of bytes that start at a position. -/
def utf8CharsFrom (position : Nat) : List UInt8 → Except Utf8Error (List Char)
  | [] => .ok []
  | b :: rest =>
    match Utf8Lead.of? b with
    | none => .error ⟨.badStart, position, b, 0⟩
    | some lead =>
      match utf8Continue lead.low lead.high lead.count lead.bits rest with
      | .error (fault, read) => .error ⟨fault, position, b, read⟩
      | .ok code => do
        let more ← utf8CharsFrom (position + lead.count + 1) (rest.drop lead.count)
        .ok (Char.ofNat code :: more)
termination_by bytes => bytes.length
decreasing_by simp only [List.length_drop, List.length_cons]; omega

/-- The text that bytes hold. -/
def ofUtf8 (bytes : List UInt8) : Except Utf8Error String :=
  (utf8CharsFrom 0 bytes).map String.ofList

end Reaching.Text
