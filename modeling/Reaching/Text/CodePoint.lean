/-
Texts as sequences of code points.

A code point is a character, or one half of a surrogate pair. A text that was decoded from bytes
has characters only. But an escape may name a half by itself, and then the half stands in the
text as it is, also next to the other half of a pair: only escapes of JSON put the two together.
-/
namespace Reaching

/-- A code point. The half of a pair with the index `n` has the number `0xd800 + n`; the halves that
come first in a pair are the lower half of them. -/
inductive CodePoint where
  | char (c : Char)
  | half (index : Fin 0x800)
  deriving DecidableEq, Repr, Inhabited

instance : Coe Char CodePoint := ⟨.char⟩

/-- A text. -/
abbrev Text := List CodePoint

namespace CodePoint

def number : CodePoint → Nat
  | .char c => c.toNat
  | .half index => 0xd800 + index.val

/-- The code point with a number. -/
def ofNumber (n : Nat) : CodePoint :=
  if h : 0xd800 ≤ n ∧ n < 0xe000 then .half ⟨n - 0xd800, by omega⟩ else .char (Char.ofNat n)

/-- Whether a code point is a character with some property. -/
def isChar (p : Char → Bool) : CodePoint → Bool
  | .char c => p c
  | .half _ => false

/-- Whether a code point is the half that comes first in a pair. -/
def isHigh : CodePoint → Bool
  | .char _ => false
  | .half index => index.val < 0x400

/-- Whether a code point is the half that comes second in a pair. -/
def isLow : CodePoint → Bool
  | .char _ => false
  | .half index => 0x400 ≤ index.val

@[simp] theorem ofNumber_number (c : CodePoint) : ofNumber c.number = c := by
  cases c with
  | char c =>
    have hc : c.toNat < 0xd800 ∨ 0xdfff < c.toNat ∧ c.toNat < 0x110000 := c.valid
    rw [number, ofNumber, dif_neg (by omega), Char.ofNat_toNat]
  | half index =>
    have := index.isLt
    rw [number, ofNumber, dif_pos (by omega)]
    simp

end CodePoint

namespace Text

/-- Some characters as a text. -/
def ofChars (cs : List Char) : Text := cs.map .char

/-- The text of a string. -/
def ofString (s : String) : Text := ofChars s.toList

instance : Coe String Text := ⟨ofString⟩

/-- Whether a text stands in front of another one or is the same, by the numbers of its code
points. -/
def isUpTo : Text → Text → Bool
  | [], _ => true
  | _ :: _, [] => false
  | c :: s, d :: t => c.number < d.number || (c = d && isUpTo s t)

@[simp] theorem ofChars_nil : ofChars [] = [] := rfl

@[simp] theorem ofChars_cons (c : Char) (cs : List Char) : ofChars (c :: cs) = .char c :: ofChars cs := rfl

@[simp] theorem ofChars_append (cs ds : List Char) : ofChars (cs ++ ds) = ofChars cs ++ ofChars ds :=
  List.map_append

@[simp] theorem length_ofChars (cs : List Char) : (ofChars cs).length = cs.length := List.length_map _

@[simp] theorem char_mem_ofChars {c : Char} {cs : List Char} : CodePoint.char c ∈ ofChars cs ↔ c ∈ cs := by
  simp [ofChars]

theorem ofChars_injective {cs ds : List Char} (h : ofChars cs = ofChars ds) : cs = ds :=
  List.map_inj_right (fun _ _ => CodePoint.char.inj) |>.1 h

@[simp] theorem ofChars_inj {cs ds : List Char} : ofChars cs = ofChars ds ↔ cs = ds :=
  ⟨ofChars_injective, congrArg _⟩

theorem ofString_append (s t : String) : ofString (s ++ t) = ofString s ++ ofString t := by
  simp [ofString]

@[simp] theorem ofString_inj {s t : String} : ofString s = ofString t ↔ s = t := by
  simp [ofString, String.toList_inj]

end Text
end Reaching
