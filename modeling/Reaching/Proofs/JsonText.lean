/-
Reading back JSON text that was written.

Each part of a text is read up to its own end and no further, so what is written reads as what
it was whatever follows it. This holds of strings because the closing quote is the first one that is
not escaped, of numbers if no digit, point or exponent follows, and of arrays and objects by
induction on the value. The induction also counts: a value takes no more steps than twice its
length in characters (`readValue_valueText`), and reading a text allows for more.

A string must not hold the two halves of a surrogate pair one behind the other. Each of them is
written by its own escape, and that is how the one character that they stand for is written too.
Numbers with a fraction are left out, and integers with more digits than can be read; objects
have every key once.
-/
import Mathlib.Data.List.Chain
import Mathlib.Tactic.SplitIfs
import Reaching.Json.Reader
import Reaching.Json.Writer

namespace Reaching

/-- No half that comes first in a surrogate pair stands in front of one that comes second. -/
def Text.Unpaired (t : Text) : Prop := t.IsChain fun c d => ¬ (c.isHigh = true ∧ d.isLow = true)

instance (t : Text) : Decidable t.Unpaired := inferInstanceAs (Decidable (t.IsChain _))

namespace Json

/-! ## Hexadecimal digits -/

theorem hexDigit?_digitChar : ∀ {d : Nat}, d < 16 → hexDigit? (Nat.digitChar d) = some d := by decide

theorem toList_hex_one {n : Nat} (h : n < 16) : (Text.hex 1 n).toList = [Nat.digitChar n] := by
  simp [Text.hex, Nat.toDigits_of_lt_base h]

/-- The last digit of a number that is filled up with zeros. -/
theorem toList_hex_succ {width : Nat} (hwidth : 0 < width) (n : Nat) :
    (Text.hex (width + 1) n).toList = (Text.hex width (n / 16)).toList ++ [Nat.digitChar (n % 16)] := by
  simp only [Text.hex, String.toList_ofList]
  by_cases h : n < 16
  · have hzero : n / 16 = 0 := Nat.div_eq_of_lt h
    obtain ⟨w, rfl⟩ : ∃ w, width = w + 1 := ⟨width - 1, by omega⟩
    rw [Nat.toDigits_of_lt_base h, hzero, Nat.mod_eq_of_lt h, Nat.toDigits_zero]
    simp [List.replicate_succ']
  · rw [Nat.toDigits_of_base_le (by decide) (Nat.le_of_not_lt h), List.length_append, List.length_singleton,
      Nat.add_sub_add_right, List.append_assoc]

theorem toList_hex_four {n : Nat} (h : n < 0x10000) : (Text.hex 4 n).toList =
    [n / 16 / 16 / 16, n / 16 / 16 % 16, n / 16 % 16, n % 16].map Nat.digitChar := by
  rw [toList_hex_succ (by decide), toList_hex_succ (by decide), toList_hex_succ (by decide),
    toList_hex_one (by omega)]
  rfl

theorem hexFour?_hex {n : Nat} (h : n < 0x10000) (c : CodePoint) (rest : Text) :
    hexFour? (Text.ofString (Text.hex 4 n) ++ c :: rest) = some (n, c :: rest) := by
  have hlast : ∀ m, hexDigit? (Nat.digitChar (m % 16)) = some (m % 16) := fun m =>
    hexDigit?_digitChar (Nat.mod_lt m (by decide))
  have hfirst : hexDigit? (Nat.digitChar (n / 16 / 16 / 16)) = some (n / 16 / 16 / 16) :=
    hexDigit?_digitChar (by omega)
  have hsum : ((n / 16 / 16 / 16 * 16 + n / 16 / 16 % 16) * 16 + n / 16 % 16) * 16 + n % 16 = n := by omega
  simp only [Text.ofString, toList_hex_four h, List.map_cons, List.map_nil, Text.ofChars_cons, Text.ofChars_nil,
    List.cons_append, List.nil_append, hexFour?, hfirst, hlast, Option.bind_eq_bind, Option.bind_some, hsum]

/-! ## Strings -/

theorem number_lt (c : CodePoint) : c.number < 0x110000 := by
  cases c with
  | char c =>
    have hc : c.toNat < 0xd800 ∨ 0xdfff < c.toNat ∧ c.toNat < 0x110000 := c.valid
    rw [CodePoint.number]
    omega
  | half index =>
    rw [CodePoint.number]
    omega

/-- A half that comes first in a pair is told by its number, and so is one that comes second. -/
theorem isHighSurrogate_number (c : CodePoint) : isHighSurrogate c.number = c.isHigh := by
  rw [Bool.eq_iff_iff]
  cases c with
  | char c =>
    have hc : c.toNat < 0xd800 ∨ 0xdfff < c.toNat ∧ c.toNat < 0x110000 := c.valid
    simp only [isHighSurrogate, CodePoint.isHigh, Bool.and_eq_true, decide_eq_true_eq, Bool.false_eq_true, iff_false]
    rw [CodePoint.number]
    omega
  | half index =>
    simp only [isHighSurrogate, CodePoint.isHigh, Bool.and_eq_true, decide_eq_true_eq]
    rw [CodePoint.number]
    omega

theorem isLowSurrogate_number (c : CodePoint) : isLowSurrogate c.number = c.isLow := by
  rw [Bool.eq_iff_iff]
  cases c with
  | char c =>
    have hc : c.toNat < 0xd800 ∨ 0xdfff < c.toNat ∧ c.toNat < 0x110000 := c.valid
    simp only [isLowSurrogate, CodePoint.isLow, Bool.and_eq_true, decide_eq_true_eq, Bool.false_eq_true, iff_false]
    rw [CodePoint.number]
    omega
  | half index =>
    have := index.isLt
    simp only [isLowSurrogate, CodePoint.isLow, Bool.and_eq_true, decide_eq_true_eq]
    rw [CodePoint.number]
    omega

theorem ofString_escapeUnit (n : Nat) :
    Text.ofString (escapeUnit n) = .char '\\' :: .char 'u' :: Text.ofString (Text.hex 4 n) := by
  simp [escapeUnit, Text.ofString]

/-- How a code point is written: by an escape of one letter, as it is, or by its number. -/
inductive Spells (c : CodePoint) : Text → Prop
  | letter {e : CodePoint} : simpleEscape? e = some c → Spells c [.char '\\', e]
  | plain : c ≠ .char '"' → c ≠ .char '\\' → 0x1f < c.number → Spells c [c]
  | unit : c.number < 0x10000 → Spells c (Text.ofString (escapeUnit c.number))
  | pair : 0x10000 ≤ c.number → Spells c
      (Text.ofString (escapeUnit (0xd800 + (c.number - 0x10000) / 0x400)) ++
        Text.ofString (escapeUnit (0xdc00 + (c.number - 0x10000) % 0x400)))

theorem spells_writeCharacter (c : Char) : Spells (.char c) (Text.ofString (writeCharacter c)) := by
  unfold writeCharacter
  extract_lets n
  split_ifs with hquote hslash _ _ _ _ _ hprint hbasic
  iterate 7 (subst c; exact .letter rfl)
  · have hself : Text.ofString c.toString = [.char c] := by simp [Text.ofString]
    rw [hself]
    exact .plain (by simpa using hquote) (by simpa using hslash) (show 0x1f < n by omega)
  · exact .unit (show n < 0x10000 by omega)
  · rw [Text.ofString_append]
    exact .pair (show 0x10000 ≤ n by omega)

theorem spells_writeChar (c : CodePoint) : Spells c (Text.ofString (writeChar c)) := by
  cases c with
  | char c => exact spells_writeCharacter c
  | half index => exact .unit (show 0xd800 + index.val < 0x10000 by omega)

theorem Spells.ne_nil {c : CodePoint} {text : Text} (h : Spells c text) : text ≠ [] := by
  cases h with
  | letter _ => exact List.cons_ne_nil _ _
  | plain _ _ _ => exact List.cons_ne_nil _ _
  | unit _ =>
    rw [ofString_escapeUnit]
    exact List.cons_ne_nil _ _
  | pair _ =>
    rw [ofString_escapeUnit]
    exact List.cons_ne_nil _ _

/-- A code point behind the basic plane is put together from its two halves. -/
theorem joinSurrogates_split {n : Nat} (hlow : 0x10000 ≤ n) :
    joinSurrogates (0xd800 + (n - 0x10000) / 0x400) (0xdc00 + (n - 0x10000) % 0x400) = n := by
  unfold joinSurrogates
  omega

/-- A text that does not go on with the escape of the second half of a pair. -/
def KeepsApart (after : Text) : Prop :=
  ∀ more, after = .char '\\' :: .char 'u' :: more →
    ∃ m beyond, hexFour? more = some (m, beyond) ∧ isLowSurrogate m = false

theorem keepsApart_escapeUnit {n : Nat} (h : n < 0x10000) (hlow : isLowSurrogate n = false) (next : CodePoint)
    (rest : Text) : KeepsApart (Text.ofString (escapeUnit n) ++ next :: rest) := by
  intro more hmore
  rw [ofString_escapeUnit] at hmore
  obtain rfl := (List.cons.inj (List.cons.inj hmore).2).2
  exact ⟨n, _, hexFour?_hex h next rest, hlow⟩

/-- Only the second half of a pair is written by its escape. -/
theorem Spells.keepsApart {c : CodePoint} {text : Text} (h : Spells c text) (hlow : c.isLow = false)
    (next : CodePoint) (rest : Text) : KeepsApart (text ++ next :: rest) := by
  cases h with
  | letter he =>
    intro more hmore
    obtain rfl := (List.cons.inj (List.cons.inj hmore).2).1
    cases he
  | plain _ hslash _ => exact fun _ hmore => absurd (List.cons.inj hmore).1 hslash
  | unit hbasic => exact keepsApart_escapeUnit hbasic ((isLowSurrogate_number c).trans hlow) next rest
  | pair hbeyond =>
    have := number_lt c
    rw [List.append_assoc, ofString_escapeUnit (_ + _ % _), List.cons_append]
    refine keepsApart_escapeUnit (by omega) ?_ _ _
    simp only [isLowSurrogate, Bool.and_eq_false_iff, decide_eq_false_iff_not]
    omega

theorem keepsApart_of_ne {c : CodePoint} (h : c ≠ .char '\\') (rest : Text) : KeepsApart (c :: rest) :=
  fun _ hmore => absurd (List.cons.inj hmore).1 h

section Strings

variable (start : Text) (fuel : Nat) (read : Text)

theorem readString_escape {e c : CodePoint} (h : simpleEscape? e = some c) (rest : Text) :
    readString start (fuel + 1) read (.char '\\' :: e :: rest) =
      readString start fuel (c :: read) rest := by
  have hu : e ≠ .char 'u' := by
    rintro rfl
    cases h
  rw [readString]
  · simp only [h]
  · exact hu

theorem readString_plain {c : CodePoint} (hquote : c ≠ .char '"') (hslash : c ≠ .char '\\')
    (hcontrol : 0x1f < c.number) (rest : Text) :
    readString start (fuel + 1) read (c :: rest) = readString start fuel (c :: read) rest := by
  rw [readString]
  · exact if_neg (Nat.not_le_of_lt hcontrol)
  all_goals simp_all

/-- Four digits that are not put together with what follows. -/
theorem readString_unit {n : Nat} (h : n < 0x10000) (next : CodePoint) (rest : Text)
    (hapart : isHighSurrogate n = true → KeepsApart (next :: rest)) :
    readString start (fuel + 1) read (Text.ofString (escapeUnit n) ++ next :: rest) =
      readString start fuel (.ofNumber n :: read) (next :: rest) := by
  rw [ofString_escapeUnit, List.cons_append, List.cons_append, readString, hexFour?_hex h]
  dsimp only
  split
  · rename_i more hhigh hafter
    obtain ⟨m, beyond, hmore, hlow⟩ := hapart hhigh more hafter
    simp only [hmore, hlow, Bool.false_eq_true, if_false, ite_self]
  · rfl

/-- Two halves of a surrogate pair. -/
theorem readString_pair {high low : Nat} (hhigh : 0xd800 ≤ high ∧ high ≤ 0xdbff)
    (hlow : 0xdc00 ≤ low ∧ low ≤ 0xdfff) (next : CodePoint) (rest : Text) :
    readString start (fuel + 1) read
        (Text.ofString (escapeUnit high) ++ (Text.ofString (escapeUnit low) ++ next :: rest)) =
      readString start fuel (.ofNumber (joinSurrogates high low) :: read) (next :: rest) := by
  have hfour : hexFour? (Text.ofString (Text.hex 4 low) ++ next :: rest) = some (low, next :: rest) :=
    hexFour?_hex (by omega) next rest
  have hlong : ¬ (Text.ofString (Text.hex 4 low) ++ next :: rest).length < 5 := by
    have hlength : (Text.ofString (Text.hex 4 low)).length = 4 := by
      rw [Text.ofString, Text.length_ofChars, toList_hex_four (by omega)]
      rfl
    rw [List.length_append, List.length_cons, hlength]
    omega
  have hhigh' : isHighSurrogate high = true := by simp [isHighSurrogate, hhigh]
  have hlow' : isLowSurrogate low = true := by simp [isLowSurrogate, hlow]
  rw [ofString_escapeUnit, ofString_escapeUnit, List.cons_append, List.cons_append, List.cons_append,
    List.cons_append, readString, hexFour?_hex (by omega)]
  simp only [hhigh', if_neg hlong, hfour, if_pos hlow']

/-- Reading takes a written code point back, if the string goes on and the half of a pair is kept apart
from what follows. -/
theorem readString_spelled {c : CodePoint} {text : Text} (h : Spells c text) (next : CodePoint) (rest : Text)
    (hapart : c.isHigh = true → KeepsApart (next :: rest)) :
    readString start (fuel + 1) read (text ++ next :: rest) =
      readString start fuel (c :: read) (next :: rest) := by
  cases h with
  | letter he => exact readString_escape start fuel read he _
  | plain hquote hslash hcontrol => exact readString_plain start fuel read hquote hslash hcontrol _
  | unit hbasic =>
    rw [readString_unit start fuel read hbasic next rest (isHighSurrogate_number c ▸ hapart),
      CodePoint.ofNumber_number]
  | pair hbeyond =>
    have := number_lt c
    rw [List.append_assoc, readString_pair start fuel read (by omega) (by omega),
      joinSurrogates_split hbeyond, CodePoint.ofNumber_number]

end Strings

/-- The code points of a string between its quotes. -/
def written (cs : Text) : Text := cs.flatMap fun c => Text.ofString (writeChar c)

theorem written_cons (c : CodePoint) (cs : Text) :
    written (c :: cs) = Text.ofString (writeChar c) ++ written cs := List.flatMap_cons

theorem ofString_writeString (s : Text) :
    Text.ofString (writeString s) = .char '"' :: (written s ++ [.char '"']) := by
  simp [writeString, written, Text.ofString, Text.ofChars, String.toList_join, List.flatMap_map, List.map_flatMap]

theorem length_le_written (cs : Text) : cs.length ≤ (written cs).length := by
  induction cs with
  | nil => exact Nat.zero_le _
  | cons c cs ih =>
    have hpos : 0 < (Text.ofString (writeChar c)).length := List.length_pos_iff.2 (spells_writeChar c).ne_nil
    rw [written_cons, List.length_append, List.length_cons]
    omega

/-- **A written string reads as it was**, up to its closing quote. -/
theorem readString_written (start rest cs : Text) (fuel : Nat) (read : Text) (hcs : cs.Unpaired)
    (h : cs.length < fuel) :
    readString start fuel read (written cs ++ .char '"' :: rest) = .ok (read.reverse ++ cs, rest) := by
  induction cs generalizing fuel read with
  | nil =>
    obtain ⟨fuel, rfl⟩ : ∃ k, fuel = k + 1 := ⟨fuel - 1, by omega⟩
    show Except.ok (read.reverse, rest) = _
    rw [List.append_nil]
  | cons c cs ih =>
    obtain ⟨fuel, rfl⟩ : ∃ k, fuel = k + 1 := ⟨fuel - 1, by omega⟩
    have hgoes : ∃ next more, written cs ++ .char '"' :: rest = next :: more :=
      List.exists_cons_of_ne_nil (by simp)
    obtain ⟨next, more, hgoes⟩ := hgoes
    have hapart : c.isHigh = true → KeepsApart (next :: more) := by
      intro hhigh
      rw [← hgoes]
      cases cs with
      | nil => exact keepsApart_of_ne (by decide) rest
      | cons d cs =>
        have hlow : d.isLow = false := by
          simpa [hhigh] using (List.isChain_cons_cons.1 hcs).1
        obtain ⟨next, more, hgoes⟩ : ∃ next more, written cs ++ .char '"' :: rest = next :: more :=
          List.exists_cons_of_ne_nil (by simp)
        rw [written_cons, List.append_assoc, hgoes]
        exact (spells_writeChar d).keepsApart hlow next more
    rw [written_cons, List.append_assoc, hgoes,
      readString_spelled start fuel read (spells_writeChar c) next more hapart, ← hgoes,
      ih fuel (c :: read) hcs.tail (by simpa using h)]
    simp

/-! ## Integers -/

/-- A text that does not go on with a number: it begins with no digit, point or exponent. -/
def Ends (rest : Text) : Prop :=
  ∀ c more, rest = c :: more → c.isChar isDigit = false ∧ c ≠ '.' ∧ c ≠ 'e' ∧ c ≠ 'E'

theorem natOf_toDigits (n : Nat) : natOf (Nat.toDigits 10 n) = n := by
  have hsame : natOf (Nat.toDigits 10 n) = Nat.ofDigitChars 10 (Nat.toDigits 10 n) 0 := by
    simp only [natOf, Nat.ofDigitChars, Nat.mul_comm 10]
  rw [hsame, Nat.ofDigitChars_toDigits (by decide) (by decide)]

theorem isDigit_of_mem_toDigits {n : Nat} {c : Char} (h : c ∈ Nat.toDigits 10 n) : isDigit c = true :=
  Nat.isDigit_of_mem_toDigits (by decide) (by decide) h

/-- The digits of a positive number do not start with a zero. -/
theorem toDigits_eq_cons {n : Nat} (h : 0 < n) : ∃ c digits, Nat.toDigits 10 n = c :: digits ∧ c ≠ '0' := by
  induction n using Nat.strongRecOn with
  | ind n ih =>
    by_cases hsmall : n < 10
    · refine ⟨_, [], Nat.toDigits_of_lt_base hsmall, fun hzero => ?_⟩
      exact Nat.ne_of_gt h (Nat.digitChar_eq_zero.1 hzero)
    · obtain ⟨c, digits, hdigits, hc⟩ := ih (n / 10) (by omega) (by omega)
      refine ⟨c, digits ++ [Nat.digitChar (n % 10)], ?_, hc⟩
      rw [Nat.toDigits_of_base_le (by decide) (by omega), hdigits, List.cons_append]

variable {rest : Text}

theorem Ends.digits (h : Ends rest) : digits rest = ([], rest) := by
  unfold Json.digits
  split
  case h_1 c more => exact if_neg (Bool.not_eq_true _ ▸ (h _ _ rfl).1)
  case h_2 => rfl

theorem digits_append {ds : List Char} (hds : ∀ d ∈ ds, isDigit d = true) (h : Ends rest) :
    digits (Text.ofChars ds ++ rest) = (ds, rest) := by
  induction ds with
  | nil => exact h.digits
  | cons d ds ih =>
    rw [Text.ofChars_cons, List.cons_append, digits, if_pos (hds d (List.mem_cons_self ..)),
      ih fun e he => hds e (List.mem_cons_of_mem d he)]

theorem wholeDigits?_toDigits (n : Nat) (h : Ends rest) :
    wholeDigits? (Text.ofChars (Nat.toDigits 10 n) ++ rest) = some (Nat.toDigits 10 n, rest) := by
  obtain rfl | hpos := Nat.eq_zero_or_pos n
  · rfl
  · obtain ⟨c, ds, hds, hzero⟩ := toDigits_eq_cons hpos
    have hread : digits (Text.ofChars (c :: ds) ++ rest) = (c :: ds, rest) :=
      digits_append (fun d hd => isDigit_of_mem_toDigits (n := n) (hds ▸ hd)) h
    rw [hds, Text.ofChars_cons, List.cons_append, wholeDigits?]
    · rw [← List.cons_append, ← Text.ofChars_cons, hread]
      exact if_neg (List.cons_ne_nil c ds)
    · exact fun _ heq => hzero (CodePoint.char.inj (List.cons.inj heq).1)

theorem Ends.fraction? (h : Ends rest) : fraction? rest = none := by
  unfold Json.fraction?
  split
  case h_1 => exact absurd rfl (h _ _ rfl).2.1
  case h_2 => rfl

theorem Ends.exponent? (h : Ends rest) : exponent? rest = none := by
  unfold Json.exponent?
  split
  case h_1 e more => exact if_neg (by simp [(h e more rfl).2.2.1, (h e more rfl).2.2.2])
  case h_2 => rfl

theorem readNumber_toDigits (start : Text) (negative : Bool) {n : Nat}
    (hshort : (Nat.toDigits 10 n).length ≤ maxIntDigits) (h : Ends rest) :
    readNumber start negative (Text.ofChars (Nat.toDigits 10 n) ++ rest) =
      .ok (.int (if negative then -n else n), rest) := by
  simp only [readNumber, wholeDigits?_toDigits n h, h.fraction?, h.exponent?, natOf_toDigits,
    Bool.false_eq_true, if_false, if_neg (Nat.not_lt_of_le hshort)]

/-! ## Values -/

mutual

/-- A value that can be read back: it has no number with a fraction, no integer of too many
digits, no text with the halves of a surrogate pair in a row, and no key twice. -/
def Plain : Json → Prop
  | .float _ => False
  | .int n => Text.IsShort n
  | .str s => s.Unpaired
  | .arr items => PlainItems items
  | .obj members => PlainMembers members ∧ (members.map (·.1)).Nodup
  | _ => True

def PlainItems : List Json → Prop
  | [] => True
  | v :: rest => v.Plain ∧ PlainItems rest

def PlainMembers : List (Text × Json) → Prop
  | [] => True
  | (k, v) :: rest => k.Unpaired ∧ v.Plain ∧ PlainMembers rest

end

theorem plainItems_of_forall {items : List Json} (h : ∀ v ∈ items, v.Plain) : PlainItems items := by
  induction items with
  | nil => trivial
  | cons v items ih => exact ⟨h v (List.mem_cons_self ..), ih fun w hw => h w (List.mem_cons_of_mem v hw)⟩

/-- A text that a value begins. -/
def Starts (cs : Text) : Prop :=
  ∃ c rest, cs = .char c :: rest ∧ isSpace c = false ∧ c ≠ ']' ∧ c ≠ '\ufeff'

theorem Starts.skipSpace {cs : Text} (h : Starts cs) : skipSpace cs = cs := by
  obtain ⟨c, rest, rfl, hspace, -⟩ := h
  exact List.dropWhile_cons_of_neg (by simp [hspace])

theorem Starts.skipSpace_blank {cs : Text} (h : Starts cs) : Json.skipSpace (.char ' ' :: cs) = cs :=
  h.skipSpace

theorem Starts.append {cs : Text} (h : Starts cs) (rest : Text) : Starts (cs ++ rest) := by
  obtain ⟨c, more, rfl, h⟩ := h
  exact ⟨c, more ++ rest, rfl, h⟩

/-- The text of a value on one line. -/
def valueText (v : Json) : Text := Text.ofString (compact v)

theorem valueText_ofNat (n : Nat) : valueText (.int (.ofNat n)) = Text.ofChars (Nat.toDigits 10 n) :=
  congrArg Text.ofChars Nat.toList_repr

theorem valueText_negSucc (n : Nat) :
    valueText (.int (.negSucc n)) = .char '-' :: Text.ofChars (Nat.toDigits 10 (n + 1)) := by
  have hsign : compact (.int (.negSucc n)) = "-" ++ (n + 1).repr := rfl
  rw [valueText, hsign, Text.ofString, String.toList_append, Nat.toList_repr]
  rfl

theorem valueText_str (s : Text) : valueText (.str s) = Text.ofString (writeString s) := rfl

/-- The items of an array between its brackets. -/
def itemsText (items : List Json) : Text := Text.ofString (", ".intercalate (writeItems none items))

/-- The members of an object between its braces. -/
def membersText (members : List (Text × Json)) : Text :=
  Text.ofString (", ".intercalate (writeMembers none members))

theorem valueText_arr (v : Json) (items : List Json) :
    valueText (.arr (v :: items)) = .char '[' :: (itemsText (v :: items) ++ [.char ']']) := by
  simp [valueText, compact, write, itemSeparator, lineBreak, itemsText, Text.ofString]

theorem valueText_obj (m : Text × Json) (members : List (Text × Json)) :
    valueText (.obj (m :: members)) = .char '\x7b' :: (membersText (m :: members) ++ [.char '\x7d']) := by
  simp [valueText, compact, write, itemSeparator, lineBreak, membersText, Text.ofString]

theorem itemsText_singleton (v : Json) : itemsText [v] = valueText v := by
  simp [itemsText, writeItems, valueText, compact]

theorem itemsText_cons_cons (v w : Json) (items : List Json) :
    itemsText (v :: w :: items) = valueText v ++ .char ',' :: .char ' ' :: itemsText (w :: items) := by
  simp [itemsText, writeItems, String.toList_intercalate, valueText, compact, Text.ofString]

theorem membersText_singleton (key : Text) (v : Json) : membersText [(key, v)] =
    Text.ofString (writeString key) ++ .char ':' :: .char ' ' :: valueText v := by
  simp [membersText, writeMembers, valueText, compact, Text.ofString]

theorem membersText_cons_cons (key : Text) (v : Json) (m : Text × Json) (members : List (Text × Json)) :
    membersText ((key, v) :: m :: members) =
      Text.ofString (writeString key) ++
        .char ':' :: .char ' ' :: (valueText v ++ .char ',' :: .char ' ' :: membersText (m :: members)) := by
  simp [membersText, writeMembers, String.toList_intercalate, valueText, compact, Text.ofString]

/-- A digit is none of the characters that a value or a word may begin with otherwise. -/
theorem ne_of_isDigit {c d : Char} (h : isDigit c = true) (hd : isDigit d = false) : c ≠ d := by
  rintro rfl
  exact absurd h (by simp [hd])

theorem isSpace_of_isDigit {c : Char} (h : isDigit c = true) : isSpace c = false := by
  have hne := fun d => @ne_of_isDigit c d h
  simp [isSpace, CodePoint.isChar, hne ' ' rfl, hne '\t' rfl, hne '\n' rfl, hne '\r' rfl]

theorem starts_toDigits (n : Nat) : Starts (Text.ofChars (Nat.toDigits 10 n)) := by
  obtain ⟨c, digits, hdigits⟩ := List.exists_cons_of_ne_nil (@Nat.toDigits_ne_nil n 10)
  have hc : isDigit c = true := isDigit_of_mem_toDigits (hdigits ▸ List.mem_cons_self ..)
  exact ⟨c, Text.ofChars digits, congrArg _ hdigits, isSpace_of_isDigit hc, ne_of_isDigit hc rfl,
    ne_of_isDigit hc rfl⟩

theorem starts_valueText {v : Json} (h : v.Plain) : Starts (valueText v) := by
  cases v with
  | null => exact ⟨'n', _, rfl, by decide⟩
  | bool b => cases b with
    | false => exact ⟨'f', _, rfl, by decide⟩
    | true => exact ⟨'t', _, rfl, by decide⟩
  | int n => cases n with
    | ofNat n => exact valueText_ofNat n ▸ starts_toDigits n
    | negSucc n => exact ⟨'-', _, valueText_negSucc n, by decide⟩
  | float x => exact h.elim
  | str s => exact ⟨'"', _, ofString_writeString s, by decide⟩
  | arr items => cases items with
    | nil => exact ⟨'[', _, rfl, by decide⟩
    | cons v rest => exact ⟨'[', _, valueText_arr v rest, by decide⟩
  | obj members => cases members with
    | nil => exact ⟨'\x7b', _, rfl, by decide⟩
    | cons m rest => exact ⟨'\x7b', _, valueText_obj m rest, by decide⟩

/-- The words have no digits, and all of them are longer than a sign. -/
theorem words_without_digits :
    ∀ m ∈ words, 1 < m.1.toList.length ∧ m.1.toList.any isDigit = false := by decide

/-- No word begins a number, with a sign in front of it or without one. -/
theorem readWord?_eq_none (sign : Text) (hsign : sign.length ≤ 1) {c : Char} (hc : isDigit c = true)
    (rest : Text) : readWord? (sign ++ .char c :: rest) = none := by
  rw [readWord?, List.findSome?_eq_none_iff]
  rintro ⟨word, value⟩ hword
  obtain ⟨hlong, hdigits⟩ := words_without_digits _ hword
  have hno : (Text.ofString word).isPrefixOf (sign ++ .char c :: rest) = false := by
    rw [Bool.eq_false_iff, Ne, List.isPrefixOf_iff_prefix]
    intro hbegins
    -- the digit would be one of the first two characters of the word
    have hin : sign ++ [.char c] <+: Text.ofString word := by
      refine List.prefix_of_prefix_length_le ⟨rest, by simp⟩ hbegins ?_
      rw [List.length_append, List.length_singleton, Text.ofString, Text.length_ofChars]
      exact Nat.le_trans (Nat.succ_le_succ hsign) hlong
    have hmem : .char c ∈ Text.ofString word := hin.subset (by simp)
    exact List.any_eq_false.1 hdigits c (Text.char_mem_ofChars.1 hmem) hc
  simp [word?, hno]

/-- A value that does not begin like a string, an object or an array is a word or a number. -/
theorem readValue_of_ne {fuel : Nat} {c : Char} (hquote : c ≠ '"') (hbrace : c ≠ '\x7b') (hbracket : c ≠ '[') :
    readValue (fuel + 1) (.char c :: rest) = (readWord? (.char c :: rest)).elim
      (if c = '-' then readNumber (.char c :: rest) true rest
        else readNumber (.char c :: rest) false (.char c :: rest)) .ok := by
  rw [readValue]
  · simp only [CodePoint.char.injEq]
    cases readWord? (.char c :: rest) <;> rfl
  all_goals simp_all

theorem readValue_number {fuel : Nat} {c : Char} (hquote : c ≠ '"') (hbrace : c ≠ '\x7b') (hbracket : c ≠ '[')
    (hword : readWord? (.char c :: rest) = none) : readValue (fuel + 1) (.char c :: rest) =
      if c = '-' then readNumber (.char c :: rest) true rest
      else readNumber (.char c :: rest) false (.char c :: rest) := by
  rw [readValue_of_ne hquote hbrace hbracket, hword, Option.elim_none]

theorem readValue_word {fuel : Nat} {c : Char} {found : Json × Text} (hquote : c ≠ '"')
    (hbrace : c ≠ '\x7b') (hbracket : c ≠ '[') (hword : readWord? (.char c :: rest) = some found) :
    readValue (fuel + 1) (.char c :: rest) = .ok found := by
  rw [readValue_of_ne hquote hbrace hbracket, hword, Option.elim_some]

theorem length_toDigits_le {n k : Nat} (hk : 0 < k) (h : n < Nat.pow 10 k) : (Nat.toDigits 10 n).length ≤ k :=
  (Nat.length_toDigits_le_iff (by decide) hk).2 h

theorem length_toDigits_of_isShort {n : Int} (h : Text.IsShort n) :
    (Nat.toDigits 10 n.natAbs).length ≤ maxIntDigits :=
  @length_toDigits_le n.natAbs Text.maxDigits (by decide) h

theorem readValue_int {n : Int} (h : Text.IsShort n) (fuel : Nat) (hrest : Ends rest) :
    readValue (fuel + 1) (valueText (.int n) ++ rest) = .ok (.int n, rest) := by
  have hshort := length_toDigits_of_isShort h
  cases n with
  | ofNat n =>
    obtain ⟨c, ds, hds⟩ := List.exists_cons_of_ne_nil (@Nat.toDigits_ne_nil n 10)
    have hc : isDigit c = true := isDigit_of_mem_toDigits (hds ▸ List.mem_cons_self ..)
    have hne := fun d => @ne_of_isDigit c d hc
    have hread := readNumber_toDigits (.char c :: (Text.ofChars ds ++ rest)) false hshort hrest
    rw [Int.natAbs_ofNat', hds, Text.ofChars_cons, List.cons_append] at hread
    have hword : readWord? (.char c :: (Text.ofChars ds ++ rest)) = none :=
      readWord?_eq_none [] (Nat.zero_le _) hc _
    rw [valueText_ofNat, hds, Text.ofChars_cons, List.cons_append,
      readValue_number (hne '"' rfl) (hne '\x7b' rfl) (hne '[' rfl) hword, if_neg (hne '-' rfl), hread]
    rfl
  | negSucc n =>
    obtain ⟨c, ds, hds⟩ := List.exists_cons_of_ne_nil (@Nat.toDigits_ne_nil (n + 1) 10)
    have hc : isDigit c = true := isDigit_of_mem_toDigits (hds ▸ List.mem_cons_self ..)
    have hword : readWord? (.char '-' :: (Text.ofChars (c :: ds) ++ rest)) = none :=
      readWord?_eq_none [.char '-'] (Nat.le_refl _) hc _
    have hread := readNumber_toDigits (.char '-' :: (Text.ofChars (Nat.toDigits 10 (n + 1)) ++ rest)) true hshort
      hrest
    rw [valueText_negSucc, List.cons_append,
      readValue_number (by decide) (by decide) (by decide) (hds ▸ hword), if_pos rfl]
    exact hread

/-- A string in quotes, in front of any text. -/
theorem readString_writeString {s : Text} (h : s.Unpaired) (rest : Text) : ∃ cs,
    Text.ofString (writeString s) ++ rest = .char '"' :: cs ∧
      readString (.char '"' :: cs) (cs.length + 1) [] cs = .ok (s, rest) := by
  refine ⟨written s ++ .char '"' :: rest, by simp [ofString_writeString], ?_⟩
  rw [readString_written _ _ _ _ _ h]
  · rfl
  · have := length_le_written s
    simp only [List.length_append, List.length_cons]
    omega

section Steps

variable {fuel : Nat} {cs : Text} {v : Json}

theorem readValue_str {s : Text} (h : s.Unpaired) :
    readValue (fuel + 1) (valueText (.str s) ++ rest) = .ok (.str s, rest) := by
  obtain ⟨cs, htext, hread⟩ := readString_writeString h rest
  rw [valueText_str, htext]
  show (readString (.char '"' :: cs) (cs.length + 1) [] cs >>= _) = _
  rw [hread]
  rfl

theorem readValue_array (h : Starts cs) : readValue (fuel + 1) (.char '[' :: cs) = readItems fuel [] cs := by
  obtain ⟨c, more, rfl, -, hclose, -⟩ := id h
  rw [readValue, h.skipSpace]
  split
  · simp_all
  · rfl

theorem readItems_last {read : List Json} (h : readValue fuel cs = .ok (v, .char ']' :: rest)) :
    readItems (fuel + 1) read cs = .ok (.arr (v :: read).reverse, rest) := by
  show (readValue fuel cs >>= _) = _
  rw [h]
  rfl

theorem readItems_next {read : List Json} (h : readValue fuel cs = .ok (v, .char ',' :: .char ' ' :: rest))
    (hrest : Starts rest) : readItems (fuel + 1) read cs = readItems fuel (v :: read) rest := by
  show (readValue fuel cs >>= _) = _
  rw [h]
  exact congrArg (readItems fuel (v :: read)) hrest.skipSpace_blank

theorem readValue_object :
    readValue (fuel + 1) (.char '\x7b' :: .char '"' :: cs) = readMembers fuel [] (.char '"' :: cs) := rfl

/-- A new key comes behind the others. -/
theorem putMember_of_notMem {members : List (Text × Json)} {key : Text} (h : key ∉ members.map (·.1))
    (v : Json) : putMember members key v = members ++ [(key, v)] := by
  induction members with
  | nil => rfl
  | cons m members ih =>
    rw [List.map_cons, List.mem_cons, not_or] at h
    rw [putMember, if_neg (Ne.symm h.1), ih h.2, List.cons_append]

theorem readMembers_last {read : List (Text × Json)} {key : Text} (hunpaired : key.Unpaired) (hcs : Starts cs)
    (h : readValue fuel cs = .ok (v, .char '\x7d' :: rest)) (hkey : key ∉ read.map (·.1)) :
    readMembers (fuel + 1) read (Text.ofString (writeString key) ++ .char ':' :: .char ' ' :: cs) =
      .ok (.obj (read ++ [(key, v)]), rest) := by
  obtain ⟨text, htext, hread⟩ := readString_writeString hunpaired (.char ':' :: .char ' ' :: cs)
  have hcolon : skipSpace (.char ':' :: .char ' ' :: cs) = .char ':' :: .char ' ' :: cs := rfl
  rw [htext, ← putMember_of_notMem hkey]
  show (readString (.char '"' :: text) (text.length + 1) [] text >>= _) = _
  rw [hread]
  simp only [bind, Except.bind, hcolon, hcs.skipSpace_blank, h]
  rfl

theorem readMembers_next {read : List (Text × Json)} {key : Text} (hunpaired : key.Unpaired) (hcs : Starts cs)
    (h : readValue fuel cs = .ok (v, .char ',' :: .char ' ' :: rest)) (hrest : Starts rest) (hkey : key ∉ read.map (·.1)) :
    readMembers (fuel + 1) read (Text.ofString (writeString key) ++ .char ':' :: .char ' ' :: cs) =
      readMembers fuel (read ++ [(key, v)]) rest := by
  obtain ⟨text, htext, hread⟩ := readString_writeString hunpaired (.char ':' :: .char ' ' :: cs)
  have hcolon : skipSpace (.char ':' :: .char ' ' :: cs) = .char ':' :: .char ' ' :: cs := rfl
  have hcomma : skipSpace (.char ',' :: .char ' ' :: rest) = .char ',' :: .char ' ' :: rest := rfl
  rw [htext, ← putMember_of_notMem hkey]
  show (readString (.char '"' :: text) (text.length + 1) [] text >>= _) = _
  rw [hread]
  simp only [bind, Except.bind, hcolon, hcs.skipSpace_blank, h, hcomma, hrest.skipSpace_blank]

end Steps

theorem starts_itemsText {v : Json} (h : v.Plain) (items : List Json) : Starts (itemsText (v :: items)) := by
  cases items with
  | nil => exact itemsText_singleton v ▸ starts_valueText h
  | cons w items => exact itemsText_cons_cons v w items ▸ (starts_valueText h).append _

theorem membersText_eq_cons (m : Text × Json) (members : List (Text × Json)) :
    ∃ text, membersText (m :: members) = .char '"' :: text := by
  cases members with
  | nil => exact ⟨_, by rw [membersText_singleton, ofString_writeString, List.cons_append]⟩
  | cons m' members => exact ⟨_, by rw [membersText_cons_cons, ofString_writeString, List.cons_append]⟩

theorem starts_membersText (m : Text × Json) (members : List (Text × Json)) :
    Starts (membersText (m :: members)) := by
  obtain ⟨text, htext⟩ := membersText_eq_cons m members
  exact ⟨'"', text, htext, by decide⟩

theorem ends_cons {c : Char} (hdigit : isDigit c = false) (hc : c ∉ ['.', 'e', 'E']) (rest : Text) :
    Ends (.char c :: rest) := by
  rintro _ _ ⟨⟩
  simpa [CodePoint.isChar, hdigit] using hc

mutual

/-- **What is written reads as it was**, if what follows does not go on with a number. -/
theorem readValue_valueText (v : Json) (hv : v.Plain) (fuel : Nat) (rest : Text)
    (hfuel : 2 * (valueText v).length ≤ fuel) (h : Ends rest) :
    readValue fuel (valueText v ++ rest) = .ok (v, rest) := by
  obtain ⟨fuel, rfl⟩ : ∃ k, fuel = k + 1 := by
    obtain ⟨c, more, htext, -⟩ := starts_valueText hv
    rw [htext, List.length_cons] at hfuel
    exact ⟨fuel - 1, by omega⟩
  cases v with
  | null => exact readValue_word (by decide) (by decide) (by decide) rfl
  | bool b => cases b with
    | true => exact readValue_word (by decide) (by decide) (by decide) rfl
    | false => exact readValue_word (by decide) (by decide) (by decide) rfl
  | int n => exact readValue_int hv fuel h
  | float x => exact hv.elim
  | str s => exact readValue_str hv
  | arr items => cases items with
    | nil =>
      show readValue (fuel + 1) (.char '[' :: .char ']' :: rest) = _
      rfl
    | cons w items =>
      rw [valueText_arr] at hfuel ⊢
      simp only [List.length_cons, List.length_append] at hfuel
      rw [List.cons_append, List.append_assoc, List.singleton_append,
        readValue_array ((starts_itemsText hv.1 items).append _),
        readItems_itemsText w items hv fuel [] rest (by omega)]
      rfl
  | obj members => cases members with
    | nil =>
      show readValue (fuel + 1) (.char '\x7b' :: .char '\x7d' :: rest) = _
      rfl
    | cons m members =>
      obtain ⟨text, htext⟩ := membersText_eq_cons m members
      have hread := readMembers_membersText m members hv.1 fuel [] rest hv.2
      rw [valueText_obj] at hfuel ⊢
      simp only [List.length_cons, List.length_append] at hfuel
      rw [htext, List.cons_append] at hread
      rw [List.cons_append, List.append_assoc, List.singleton_append, htext, List.cons_append, readValue_object,
        hread (by rw [← htext]; omega)]
      rfl
termination_by fuel
decreasing_by all_goals omega

/-- **The items of an array are read one after the other**, behind those that were read. -/
theorem readItems_itemsText (v : Json) (items : List Json) (hv : PlainItems (v :: items)) (fuel : Nat)
    (read : List Json) (rest : Text) (hfuel : 2 * (itemsText (v :: items)).length < fuel) :
    readItems fuel read (itemsText (v :: items) ++ .char ']' :: rest) =
      .ok (.arr (read.reverse ++ v :: items), rest) := by
  obtain ⟨fuel, rfl⟩ : ∃ k, fuel = k + 1 := ⟨fuel - 1, by omega⟩
  cases items with
  | nil =>
    rw [itemsText_singleton] at hfuel ⊢
    rw [readItems_last (readValue_valueText v hv.1 fuel _ (by omega) (ends_cons rfl (by decide) rest)),
      List.reverse_cons]
  | cons w items =>
    rw [itemsText_cons_cons] at hfuel ⊢
    simp only [List.length_cons, List.length_append] at hfuel
    rw [List.append_assoc, List.cons_append, List.cons_append,
      readItems_next (readValue_valueText v hv.1 fuel _ (by omega) (ends_cons rfl (by decide) _))
        ((starts_itemsText hv.2.1 items).append _),
      readItems_itemsText w items hv.2 fuel (v :: read) rest (by omega), List.reverse_cons, List.append_assoc,
      List.singleton_append]
termination_by fuel
decreasing_by all_goals omega

/-- **The members of an object are read one after the other**, behind those that were read. -/
theorem readMembers_membersText (m : Text × Json) (members : List (Text × Json))
    (hv : PlainMembers (m :: members)) (fuel : Nat) (read : List (Text × Json)) (rest : Text)
    (hkeys : ((read ++ m :: members).map (·.1)).Nodup)
    (hfuel : 2 * (membersText (m :: members)).length < fuel) :
    readMembers fuel read (membersText (m :: members) ++ .char '\x7d' :: rest) =
      .ok (.obj (read ++ m :: members), rest) := by
  obtain ⟨fuel, rfl⟩ : ∃ k, fuel = k + 1 := ⟨fuel - 1, by omega⟩
  obtain ⟨key, v⟩ := m
  have hkey : key ∉ read.map (·.1) := by
    rw [List.map_append, List.nodup_append] at hkeys
    exact fun hmem => hkeys.2.2 key hmem key (List.mem_cons_self ..) rfl
  cases members with
  | nil =>
    rw [membersText_singleton] at hfuel ⊢
    simp only [List.length_cons, List.length_append] at hfuel
    rw [List.append_assoc, List.cons_append, List.cons_append,
      readMembers_last hv.1 ((starts_valueText hv.2.1).append _)
        (readValue_valueText v hv.2.1 fuel _ (by omega) (ends_cons rfl (by decide) rest)) hkey]
  | cons m members =>
    rw [membersText_cons_cons] at hfuel ⊢
    simp only [List.length_cons, List.length_append] at hfuel
    rw [List.append_assoc, List.cons_append, List.cons_append, List.append_assoc, List.cons_append,
      List.cons_append,
      readMembers_next hv.1 ((starts_valueText hv.2.1).append _)
        (readValue_valueText v hv.2.1 fuel _ (by omega) (ends_cons rfl (by decide) _))
        ((starts_membersText m members).append _) hkey,
      readMembers_membersText m members hv.2.2 fuel (read ++ [(key, v)]) rest (by simpa using hkeys) (by omega),
      List.append_assoc, List.singleton_append]
termination_by fuel
decreasing_by all_goals omega

end

/-- A text that is a value to its end. -/
theorem ofText_eq_ok {cs : Text} {v : Json} (h : Starts cs)
    (hread : readValue (2 * cs.length + 2) cs = .ok (v, [])) : ofText cs = .ok v := by
  unfold ofText
  have hnil : skipSpace [] = [] := rfl
  simp only [h.skipSpace, hread, hnil]
  split
  case h_1 more =>
    obtain ⟨c, rest, hcons, -, -, hc⟩ := h
    exact absurd (CodePoint.char.inj (List.cons.inj hcons).1).symm hc
  case h_2 => rfl

/-- **Reading takes writing back**: the compact text of a value is a text of this value. -/
theorem ofText_compact {v : Json} (h : v.Plain) : ofText (compact v) = .ok v := by
  refine ofText_eq_ok (starts_valueText h) ?_
  have hread := readValue_valueText v h (2 * (valueText v).length + 2) [] (by omega) (by rintro _ _ ⟨⟩)
  rwa [List.append_nil] at hread

end Json
end Reaching
