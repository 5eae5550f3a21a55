/-
One form for names that look the same.

A name is taken apart into its smallest parts, variants of a character becoming
that character; marks are put in the order of their classes; then parts are put
together again wherever one character stands for two. Names in ASCII stay as
they are.
-/
import Reaching.Text.Decompositions
import Reaching.Text.Fields

namespace Reaching.Text

/-! ## Tables -/

/-- A rule of a table: the first code point and the number of those that follow
it, whether the parts may be put together again, and the parts. -/
structure PartRule where
  first : Nat
  count : Nat
  isReversible : Bool
  parts : List Nat
  deriving Repr, Inhabited

/-- A hexadecimal number in lower case. -/
def natOfHex (cs : List Char) : Nat :=
  cs.foldl (fun n c => n * 16 + (if c ≤ '9' then c.toNat - '0'.toNat else c.toNat - 'a'.toNat + 10)) 0

/-- The rule that an entry of a table writes. -/
def PartRule.ofEntry (entry : List Char) : PartRule :=
  let isArrow := fun c => c = '=' || c = '>'
  let subject := fields '*' (entry.takeWhile fun c => !isArrow c)
  let parts := entry.dropWhile fun c => !isArrow c
  { first := natOfHex (subject.headD [])
    count := ((subject.drop 1).head?.map natOfHex).getD 1
    isReversible := parts.head? = some '='
    parts := (fields ',' (parts.drop 1)).map natOfHex }

/-- The rules that lines of entries write. -/
def PartRule.ofLines (lines : List String) : Array PartRule :=
  (lines.flatMap fun line => (fields ' ' line.toList).map PartRule.ofEntry).toArray

def partRules : Array PartRule := PartRule.ofLines decompositionLines

def markRules : Array PartRule := PartRule.ofLines markClassLines

/-- The rule for a code point, if there is one. -/
def PartRule.find? (rules : Array PartRule) (n : Nat) : Option PartRule :=
  rules.find? fun r => r.first ≤ n && n < r.first + r.count

/-- The class of a mark; other characters have class zero. -/
def markClass (n : Nat) : Nat :=
  ((PartRule.find? markRules n).bind fun r => r.parts.head?).getD 0

/-! ## Hangul

A syllable is a lead, a vowel and perhaps a tail; the number of tails counts
the missing one. -/

def hangulLead : Nat := 0x1100

def hangulVowel : Nat := 0x1161

def hangulTail : Nat := 0x11a7

def hangulSyllable : Nat := 0xac00

def leadCount : Nat := 19

def vowelCount : Nat := 21

def tailCount : Nat := 28

/-- The parts of a syllable. -/
def syllableParts? (n : Nat) : Option (List Nat) :=
  let i := n - hangulSyllable
  if hangulSyllable ≤ n ∧ i < leadCount * vowelCount * tailCount then
    let tail := i % tailCount
    some ([hangulLead + i / (vowelCount * tailCount),
      hangulVowel + i % (vowelCount * tailCount) / tailCount]
      ++ (if tail = 0 then [] else [hangulTail + tail]))
  else none

/-- The syllable of a lead and a vowel, or of a syllable without a tail and a
tail. -/
def syllable? (a b : Nat) : Option Nat :=
  let i := a - hangulSyllable
  if hangulLead ≤ a ∧ a < hangulLead + leadCount ∧ hangulVowel ≤ b ∧ b < hangulVowel + vowelCount then
    some (hangulSyllable + ((a - hangulLead) * vowelCount + (b - hangulVowel)) * tailCount)
  else if hangulSyllable ≤ a ∧ i < leadCount * vowelCount * tailCount ∧ i % tailCount = 0
      ∧ hangulTail < b ∧ b < hangulTail + tailCount then
    some (a + (b - hangulTail))
  else none

/-! ## The form -/

/-- The smallest parts of a code point. Parts may fall apart again, but not more
than `depth` times. -/
def smallestParts : Nat → Nat → List Nat
  | 0, n => [n]
  | depth + 1, n =>
    match syllableParts? n with
    | some parts => parts
    | none =>
      match if n < 0x80 then none else PartRule.find? partRules n with
      | some r => r.parts.flatMap fun part => smallestParts depth (part + (n - r.first))
      | none => [n]

/-- The most times that parts fall apart. -/
def maxDepth : Nat := 8

/-- Puts a code point in front of others, behind the marks of lower classes. -/
def insertMark (n : Nat) : List Nat → List Nat
  | [] => [n]
  | m :: rest =>
    if 0 < markClass m ∧ markClass m < markClass n then m :: insertMark n rest else n :: m :: rest

/-- Marks next to each other in the order of their classes. -/
def orderMarks (ns : List Nat) : List Nat := ns.foldr insertMark []

/-- The code point that stands for two others. -/
def pair? (a b : Nat) : Option Nat :=
  match syllable? a b with
  | some n => some n
  | none => (partRules.find? fun r => r.isReversible && r.parts == [a, b]).map (·.first)

/-- Puts code points together with the last one that is no mark, `base`. `marks`
stand after it, the last one in front; a code point behind a mark of its own
class or a higher one stays where it is. -/
def joinParts (base : Nat) (marks : List Nat) : List Nat → List Nat
  | [] => base :: marks.reverse
  | n :: rest =>
    let isBehind := marks.head?.any fun m => markClass n ≤ markClass m
    match if isBehind then none else pair? base n with
    | some joined => joinParts joined marks rest
    | none =>
      if markClass n = 0 then base :: (marks.reverse ++ joinParts n [] rest)
      else joinParts base (n :: marks) rest

/-- The form of a name that all names that look like it share. -/
def normalized (cs : List Char) : List Char :=
  if cs.all fun c => c.toNat < 0x80 then cs
  else match orderMarks (cs.flatMap fun c => smallestParts maxDepth c.toNat) with
    | [] => []
    | n :: rest => (joinParts n [] rest).map Char.ofNat

end Reaching.Text
