/-
Which bytes are text.

Bytes are read as text exactly if they are the UTF-8 encodings of characters one after the
other, and the text that is read has these characters. A character is read from its
own encoding (`utf8_of_encoded`), and what is read as a character was its encoding
(`encoded_of_utf8`); the rest is an induction on the characters, or on the bytes.
-/
import Mathlib.Data.List.Basic
import Reaching.Proofs.Failures
import Reaching.Text.Utf8

namespace Reaching.Text

/-! ## Lead bytes and continuation bytes -/

/-- What lead bytes call for. The range of the first continuation byte leaves out numbers that
take fewer bytes, surrogates, and numbers that are too large. -/
inductive Utf8Lead.Form (b : Nat) : Utf8Lead → Prop where
  | one : b < 0x80 → Form b ⟨0, 0x80, 0xbf, b⟩
  | two : 0xc2 ≤ b → b < 0xe0 → Form b ⟨1, 0x80, 0xbf, b - 0xc0⟩
  | three : 0xe0 ≤ b → b < 0xf0 →
      Form b ⟨2, if b = 0xe0 then 0xa0 else 0x80, if b = 0xed then 0x9f else 0xbf, b - 0xe0⟩
  | four : 0xf0 ≤ b → b < 0xf5 →
      Form b ⟨3, if b = 0xf0 then 0x90 else 0x80, if b = 0xf4 then 0x8f else 0xbf, b - 0xf0⟩

theorem Utf8Lead.of?_eq_some_iff {b : UInt8} {lead : Utf8Lead} :
    Utf8Lead.of? b = some lead ↔ Form b.toNat lead := by
  constructor
  · intro h
    simp only [Utf8Lead.of?, ite_eq_iff, Option.some.injEq, reduceCtorEq, and_false, false_or, or_false] at h
    rcases h with ⟨h, rfl⟩ | ⟨-, htwo, ⟨h, rfl⟩ | ⟨hthree, ⟨h, rfl⟩ | ⟨hlow, ⟨h, rfl⟩ | ⟨hhigh, ⟨h, rfl⟩ |
      ⟨hfour, ⟨h, rfl⟩ | ⟨hlow', ⟨h, rfl⟩ | ⟨-, h, rfl⟩⟩⟩⟩⟩⟩⟩
    · exact .one h
    · exact .two (by omega) h
    · rw [h]
      exact .three (by decide) (by decide)
    · rw [h]
      exact .three (by decide) (by decide)
    · have hform := Form.three (b := b.toNat) (by omega) h
      rwa [if_neg hlow, if_neg hhigh] at hform
    · rw [h]
      exact .four (by decide) (by decide)
    · have hform := Form.four (b := b.toNat) (by omega) (by omega)
      rwa [if_neg hlow', if_neg (by omega)] at hform
    · rw [h]
      exact .four (by decide) (by decide)
  · intro h
    unfold Utf8Lead.of?
    cases h <;> grind

section
variable {low high count bits code : Nat} {bytes rest : List UInt8}

theorem utf8Continue_zero : utf8Continue low high 0 bits bytes = .ok code ↔ bits = code := by
  simp [utf8Continue]

/-- A continuation byte lies in its range, and adds six bits. -/
theorem utf8Continue_succ :
    utf8Continue low high (count + 1) bits bytes = .ok code ↔
      ∃ b rest, bytes = b :: rest ∧ (low ≤ b.toNat ∧ b.toNat ≤ high) ∧
        utf8Continue 0x80 0xbf count (bits * 0x40 + (b.toNat - 0x80)) rest = .ok code := by
  cases bytes with
  | nil => simp [utf8Continue]
  | cons b rest =>
    rw [utf8Continue]
    by_cases h : low ≤ b.toNat ∧ b.toNat ≤ high
    · rw [if_pos h]
      cases hrest : utf8Continue 0x80 0xbf count (bits * 0x40 + (b.toNat - 0x80)) rest <;> simp [h, hrest]
    · rw [if_neg h]
      simp [h]

end

/-! ## One character -/

/-- The bytes of a character by its number. -/
def encoded (n : Nat) : List UInt8 :=
  if n ≤ 0x7f then [.ofNat n]
  else if n ≤ 0x7ff then [.ofNat (n / 64 % 32 + 192), .ofNat (n % 64 + 128)]
  else if n ≤ 0xffff then
    [.ofNat (n / 4096 % 16 + 224), .ofNat (n / 64 % 64 + 128), .ofNat (n % 64 + 128)]
  else
    [.ofNat (n / 262144 % 8 + 240), .ofNat (n / 4096 % 64 + 128), .ofNat (n / 64 % 64 + 128),
      .ofNat (n % 64 + 128)]

theorem utf8EncodeChar_eq (c : Char) : String.utf8EncodeChar c = encoded c.val.toNat := rfl

theorem ofNat_eq_of_toNat {n : Nat} {b : UInt8} (h : n = b.toNat) : UInt8.ofNat n = b := by
  rw [h, UInt8.ofNat_toNat]

/-- **What is read as a character was its encoding.** -/
theorem encoded_of_utf8 {b : UInt8} {lead : Utf8Lead} {bytes : List UInt8} {code : Nat}
    (hlead : lead.Form b.toNat)
    (hread : utf8Continue lead.low lead.high lead.count lead.bits bytes = .ok code) :
    ∃ tail rest, bytes = tail ++ rest ∧ tail.length = lead.count ∧ code.isValidChar ∧
      encoded code = b :: tail := by
  cases hlead with
  | one h =>
    obtain rfl : b.toNat = code := utf8Continue_zero.1 hread
    refine ⟨[], bytes, rfl, rfl, .inl (by omega), ?_⟩
    rw [encoded, if_pos (by omega), ofNat_eq_of_toNat rfl]
  | two h1 h2 =>
    simp only [utf8Continue_succ, utf8Continue_zero] at hread
    obtain ⟨c, rest, rfl, hc, hcode⟩ := hread
    refine ⟨[c], rest, rfl, rfl, .inl (by omega), ?_⟩
    rw [encoded, if_neg (by omega), if_pos (by omega), ofNat_eq_of_toNat (b := b) (by omega),
      ofNat_eq_of_toNat (b := c) (by omega)]
  | three h1 h2 =>
    simp only [utf8Continue_succ, utf8Continue_zero] at hread
    obtain ⟨c, _, rfl, hc, d, rest, rfl, hd, hcode⟩ := hread
    have hrange : code.isValidChar ∧ 0x7ff < code ∧ 0x80 ≤ c.toNat ∧ c.toNat ≤ 0xbf := by
      unfold Nat.isValidChar
      split at hc <;> split at hc <;> omega
    clear hc
    refine ⟨[c, d], rest, rfl, rfl, hrange.1, ?_⟩
    rw [encoded, if_neg (by omega), if_neg (by omega), if_pos (by omega), ofNat_eq_of_toNat (b := b) (by omega),
      ofNat_eq_of_toNat (b := c) (by omega), ofNat_eq_of_toNat (b := d) (by omega)]
  | four h1 h2 =>
    simp only [utf8Continue_succ, utf8Continue_zero] at hread
    obtain ⟨c, _, rfl, hc, d, _, rfl, hd, e, rest, rfl, he, hcode⟩ := hread
    have hrange : (0xffff < code ∧ code < 0x110000) ∧ 0x80 ≤ c.toNat ∧ c.toNat ≤ 0xbf := by
      split at hc <;> split at hc <;> omega
    clear hc
    refine ⟨[c, d, e], rest, rfl, rfl, .inr (by omega), ?_⟩
    rw [encoded, if_neg (by omega), if_neg (by omega), if_neg (by omega), ofNat_eq_of_toNat (b := b) (by omega),
      ofNat_eq_of_toNat (b := c) (by omega), ofNat_eq_of_toNat (b := d) (by omega),
      ofNat_eq_of_toNat (b := e) (by omega)]

/-- **A character is read from its encoding.** -/
theorem utf8_of_encoded {n : Nat} (hvalid : n.isValidChar) (rest : List UInt8) :
    ∃ b tail lead, encoded n = b :: tail ∧ Utf8Lead.Form b.toNat lead ∧ tail.length = lead.count ∧
      utf8Continue lead.low lead.high lead.count lead.bits (tail ++ rest) = .ok n := by
  unfold Nat.isValidChar at hvalid
  unfold encoded
  split
  · exact ⟨_, [], _, rfl, .one (by simp; omega), rfl, utf8Continue_zero.2 (by simp; omega)⟩
  split
  · refine ⟨_, [_], _, rfl, .two (by simp; omega) (by simp; omega), rfl, ?_⟩
    simp only [utf8Continue_succ, utf8Continue_zero]
    refine ⟨_, _, rfl, ?_⟩
    simp
    omega
  split
  · refine ⟨_, [_, _], _, rfl, .three (by simp; omega) (by simp; omega), rfl, ?_⟩
    simp only [utf8Continue_succ, utf8Continue_zero]
    refine ⟨_, _, rfl, ?_, _, _, rfl, ?_⟩
    · simp
      split <;> split <;> omega
    · simp
      omega
  · refine ⟨_, [_, _, _], _, rfl, .four (by simp; omega) (by simp; omega), rfl, ?_⟩
    simp only [utf8Continue_succ, utf8Continue_zero]
    refine ⟨_, _, rfl, ?_, _, _, rfl, ?_, _, _, rfl, ?_⟩
    · simp
      split <;> split <;> omega
    · simp
      omega
    · simp
      omega

/-- The number of a character with a valid number. -/
theorem val_toNat_ofNat {n : Nat} (h : n.isValidChar) : (Char.ofNat n).val.toNat = n := by
  unfold Char.ofNat
  rw [dif_pos h]
  rfl

/-! ## Texts -/

/-- **Bytes are read as the characters whose encodings they are**, wherever they stand. -/
theorem utf8CharsFrom_eq_ok_iff (position : Nat) {bytes : List UInt8} {cs : List Char} :
    utf8CharsFrom position bytes = .ok cs ↔ bytes = cs.flatMap String.utf8EncodeChar := by
  constructor
  · intro h
    fun_induction utf8CharsFrom position bytes generalizing cs with
    | case1 => cases h; rfl
    | case2 => cases h
    | case3 => cases h
    | case4 position b rest lead hlead code hread ih =>
      obtain ⟨tail, after, rfl, hlength, hvalid, hbytes⟩ :=
        encoded_of_utf8 (Utf8Lead.of?_eq_some_iff.1 hlead) hread
      rw [← hlength, List.drop_left] at h ih
      obtain ⟨more, hmore, hcs⟩ := except_bind_eq_ok_iff.1 h
      cases hcs
      rw [List.flatMap_cons, utf8EncodeChar_eq, val_toNat_ofNat hvalid, hbytes, List.cons_append, ← ih hmore]
  · rintro rfl
    induction cs generalizing position with
    | nil => simp [utf8CharsFrom]
    | cons c cs ih =>
      have hvalid : c.val.toNat.isValidChar := c.valid
      obtain ⟨b, tail, lead, hbytes, hlead, hlength, hread⟩ :=
        utf8_of_encoded hvalid (cs.flatMap String.utf8EncodeChar)
      rw [List.flatMap_cons, utf8EncodeChar_eq, hbytes, List.cons_append, utf8CharsFrom,
        Utf8Lead.of?_eq_some_iff.2 hlead]
      dsimp only
      rw [hread]
      dsimp only
      rw [← hlength, List.drop_left, ih]
      show Except.ok (Char.ofNat c.toNat :: cs) = .ok (c :: cs)
      rw [Char.ofNat_toNat]

/-- **Bytes are read as a text exactly if they are its encoding.** -/
theorem ofUtf8_eq_ok_iff {bytes : List UInt8} {text : String} :
    ofUtf8 bytes = .ok text ↔ bytes = text.toList.flatMap String.utf8EncodeChar := by
  rw [← utf8CharsFrom_eq_ok_iff 0, ofUtf8]
  cases utf8CharsFrom 0 bytes with
  | error e => exact iff_of_false (fun h => by cases h) fun h => by cases h
  | ok cs =>
    constructor
    · intro h
      cases h
      rw [String.toList_ofList]
    · intro h
      cases h
      show Except.ok (String.ofList text.toList) = .ok text
      rw [String.ofList_toList]

/-- Some bytes are text: the UTF-8 encoding of its characters. -/
def IsUtf8 (bytes : List UInt8) : Prop := ∃ text : String, bytes = text.toList.flatMap String.utf8EncodeChar

/-- Reading bytes as text fails exactly if they are no text. -/
theorem exists_ofUtf8_eq_error_iff {bytes : List UInt8} :
    (∃ e, ofUtf8 bytes = .error e) ↔ ¬ IsUtf8 bytes := by
  unfold IsUtf8
  simp only [← ofUtf8_eq_ok_iff]
  cases ofUtf8 bytes with
  | error e => simp
  | ok text => simp

end Reaching.Text
