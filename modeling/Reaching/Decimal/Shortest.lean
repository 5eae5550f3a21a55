/-
The fewest decimal digits that read back as a given binary64 number, and the
ways in which such a number is written.

Of the decimals with a given number of digits only the two neighbours of the
number matter: if any decimal of that length reads back, so does one of
these. The first length with such a neighbour wins, and of two the nearer.
-/
import Reaching.Decimal.Binary64

namespace Reaching.Decimal

/-- A positive decimal `digits * 10 ^ scale`. -/
structure Digits where
  digits : Nat
  scale : Int
  deriving DecidableEq, Repr

/-- A positive fraction with the decimals that round to it: the numerators of
the number and of the two ends over one denominator. -/
structure Interval where
  low : Nat
  value : Nat
  high : Nat
  den : Nat
  closed : Bool

/-- The reals that round to `mantissa * 2 ^ exponent`. The gap below the least
mantissa of a binade is half the gap above; an end rounds to the even
mantissa. -/
def Interval.of (mantissa : Nat) (exponent : Int) : Interval :=
  let up := Nat.pow 2 exponent.toNat
  let den := 4 * Nat.pow 2 (-exponent).toNat
  let below := if mantissa = Nat.pow 2 52 ∧ -1074 < exponent then 1 else 2
  ⟨(4 * mantissa - below) * up, 4 * mantissa * up, (4 * mantissa + 2) * up, den,
    mantissa % 2 = 0⟩

/-- Whether `digits * 10 ^ scale` lies in an interval. -/
def Interval.contains (i : Interval) (d : Digits) : Bool :=
  let x := d.digits * Nat.pow 10 d.scale.toNat * i.den
  let unit := Nat.pow 10 (-d.scale).toNat
  if i.closed then i.low * unit ≤ x && x ≤ i.high * unit
  else i.low * unit < x && x < i.high * unit

/-- The position of the first digit of the value: the least `p` with
`value < 10 ^ p`, searched upwards from `p`. -/
def Interval.magnitude (i : Interval) : Nat → Int → Int
  | 0, p => p
  | fuel + 1, p =>
    if i.value * Nat.pow 10 (-p).toNat < i.den * Nat.pow 10 p.toNat then p
    else i.magnitude fuel (p + 1)

/-- The neighbour of the value on the grid `10 ^ scale` that reads back; the
nearer one if both do, the even one on a tie. -/
def Interval.onGrid (i : Interval) (scale : Int) : Option Digits :=
  let num := i.value * Nat.pow 10 (-scale).toNat
  let den := i.den * Nat.pow 10 scale.toNat
  let down : Digits := ⟨num / den, scale⟩
  let up : Digits := ⟨num / den + 1, scale⟩
  let nearest : Digits := ⟨Binary64.roundDiv num den, scale⟩
  match i.contains down, i.contains up with
  | true, true => some nearest
  | true, false => some down
  | false, true => some up
  | false, false => none

/-- A decimal without trailing zeros. -/
def Digits.trim : Nat → Digits → Digits
  | 0, d => d
  | fuel + 1, d =>
    if d.digits ≠ 0 ∧ d.digits % 10 = 0 then Digits.trim fuel ⟨d.digits / 10, d.scale + 1⟩ else d

/-- The shortest decimal that reads back as `mantissa * 2 ^ exponent`, the
nearest of those. Seventeen digits always suffice. -/
def shortest (mantissa : Nat) (exponent : Int) : Digits :=
  let i := Interval.of mantissa exponent
  let p := i.magnitude 700 (-330)
  let found := (List.range 17).findSome? fun (n : Nat) => i.onGrid (p - n - 1)
  (found.getD ⟨mantissa, exponent⟩).trim 20

/-! ## Written forms -/

/-- How numbers are written: the suffix that marks a whole number as not an
integer, and the texts of infinity and of no number. -/
structure Form where
  wholeSuffix : String
  infinity : String
  notANumber : String

/-- An exponent with a sign and at least two digits. -/
def exponentText (e : Int) : String :=
  let digits := toString e.natAbs
  (if e < 0 then "e-" else "e+") ++ (if digits.length < 2 then "0" ++ digits else digits)

/-- A decimal as text: with a point from `10 ^ -4` up to below `10 ^ 16`, with
an exponent elsewhere. -/
def Digits.text (form : Form) (d : Digits) : String :=
  let ds := toString d.digits
  let point : Int := ds.length + d.scale
  if -4 < point ∧ point ≤ 16 then
    if point ≤ 0 then "0." ++ "".pushn '0' (-point).toNat ++ ds
    else if point < ds.length then
      String.ofList (ds.toList.take point.toNat) ++ "." ++ String.ofList (ds.toList.drop point.toNat)
    else ds ++ "".pushn '0' (point.toNat - ds.length) ++ form.wholeSuffix
  else
    let tail := String.ofList (ds.toList.drop 1)
    String.ofList (ds.toList.take 1) ++ (if tail.isEmpty then "" else "." ++ tail)
      ++ exponentText (point - 1)

/-- A number as text. -/
def text (form : Form) : Binary64 → String
  | .notANumber => form.notANumber
  | .infinite negative => (if negative then "-" else "") ++ form.infinity
  | .finite negative 0 _ => (if negative then "-0" else "0") ++ form.wholeSuffix
  | .finite negative m e => (if negative then "-" else "") ++ (shortest m e).text form

/-- Numbers in literal notation: `1.0`, `1e+16`, `inf`, `nan`. -/
def literalForm : Form := ⟨".0", "inf", "nan"⟩

end Reaching.Decimal
