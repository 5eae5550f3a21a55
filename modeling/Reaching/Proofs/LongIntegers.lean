/-
Integers that are too long to be read or written.

A value in which such an integer stands cannot be shown either (`literal?_eq_none_iff`). But no
value that was read is of this sort. Every reader takes text from the front of what it is given, and
the only one that stops at an integer has read its digits there (`Takes`). So where reading a whole
text stops at an integer of too many digits, that many digits stand in the text one after the other
(`digits_of_ofText`), and where it gives a value, all its integers can be written
(`not_hasLongInteger_of_ofText`).
-/
import Mathlib.Data.List.Infix
import Mathlib.Data.List.TakeWhile
import Mathlib.Tactic.Common
import Reaching.Json.Reader
import Reaching.Proofs.Failures

namespace Reaching.Json

/-! ## Values with long integers -/

/-- An integer of too many digits stands in a value. -/
inductive HasLongInteger : Json → Prop
  | int {n : Int} : ¬ Text.IsShort n → HasLongInteger (.int n)
  | item {items : List Json} {v : Json} : v ∈ items → v.HasLongInteger → HasLongInteger (.arr items)
  | member {members : List (Text × Json)} {m : Text × Json} :
      m ∈ members → m.2.HasLongInteger → HasLongInteger (.obj members)

theorem hasLongInteger_int_iff {n : Int} : (Json.int n).HasLongInteger ↔ ¬ Text.IsShort n :=
  ⟨fun | .int h => h, .int⟩

theorem hasLongInteger_arr_iff {items : List Json} :
    (Json.arr items).HasLongInteger ↔ ∃ v ∈ items, v.HasLongInteger :=
  ⟨fun | .item hmem h => ⟨_, hmem, h⟩, fun ⟨_, hmem, h⟩ => .item hmem h⟩

theorem hasLongInteger_obj_iff {members : List (Text × Json)} :
    (Json.obj members).HasLongInteger ↔ ∃ m ∈ members, m.2.HasLongInteger :=
  ⟨fun | .member hmem h => ⟨_, hmem, h⟩, fun ⟨_, hmem, h⟩ => .member hmem h⟩

mutual

/-- **A value cannot be shown just when an integer of too many digits stands in it.** -/
theorem literal?_eq_none_iff (v : Json) : v.literal? = none ↔ v.HasLongInteger := by
  cases v with
  | int n => simp [literal?, Text.decimal?, hasLongInteger_int_iff]
  | arr items =>
    rw [hasLongInteger_arr_iff, ← literals?_eq_none_iff items, literal?]
    cases literals? items <;> simp
  | obj members =>
    rw [hasLongInteger_obj_iff, ← memberLiterals?_eq_none_iff members, literal?]
    cases memberLiterals? members <;> simp
  | _ =>
    constructor
    case mp =>
      intro h
      cases h
    case mpr =>
      intro h
      cases h

theorem literals?_eq_none_iff (items : List Json) :
    literals? items = none ↔ ∃ v ∈ items, v.HasLongInteger := by
  cases items with
  | nil => simp [literals?]
  | cons v rest =>
    simp only [List.mem_cons, exists_eq_or_imp, ← literal?_eq_none_iff v, ← literals?_eq_none_iff rest,
      literals?]
    cases v.literal? <;> cases literals? rest <;> simp

theorem memberLiterals?_eq_none_iff (members : List (Text × Json)) :
    memberLiterals? members = none ↔ ∃ m ∈ members, m.2.HasLongInteger := by
  cases members with
  | nil => simp [memberLiterals?]
  | cons m rest =>
    obtain ⟨k, v⟩ := m
    simp only [List.mem_cons, exists_eq_or_imp, ← literal?_eq_none_iff v, ← memberLiterals?_eq_none_iff rest,
      memberLiterals?]
    cases v.literal? <;> cases memberLiterals? rest <;> simp

end

/-! ## Taking text -/

/-- Digits stand in a text one after the other, too many for an integer. -/
def HasDigits (cs : Text) (count : Nat) : Prop :=
  maxIntDigits < count ∧
    ∃ digits, digits.length = count ∧ (∀ c ∈ digits, isDigit c = true) ∧ Text.ofChars digits <:+: cs

/-- Reading takes text from the front of `cs` for something of one sort, and stops at an integer only
if its digits stand there. -/
structure Takes {α : Type} (sort : α → Prop) (cs : Text) (read : Except Stop (α × Text)) : Prop where
  sort : ∀ a rest, read = .ok (a, rest) → sort a
  rest : ∀ a rest, read = .ok (a, rest) → rest <:+ cs
  digits : ∀ count, read = .error (.tooManyDigits count) → HasDigits cs count

variable {α β : Type} {sort : α → Prop} {sort' : β → Prop} {cs rest : Text} {read : Except Stop (α × Text)}

theorem HasDigits.of_suffix {count : Nat} (h : HasDigits rest count) (hrest : rest <:+ cs) :
    HasDigits cs count := by
  obtain ⟨hmany, digits, hlength, hall, hin⟩ := h
  exact ⟨hmany, digits, hlength, hall, hin.trans hrest.isInfix⟩

theorem Takes.of_suffix (h : Takes sort rest read) (hrest : rest <:+ cs) : Takes sort cs read where
  sort := h.sort
  rest := fun a after hread => (h.rest a after hread).trans hrest
  digits := fun count hread => (h.digits count hread).of_suffix hrest

theorem takes_ok {a : α} (ha : sort a) (h : rest <:+ cs) : Takes sort cs (.ok (a, rest)) where
  sort := fun _ _ hread => by
    cases hread
    exact ha
  rest := fun _ _ hread => by
    cases hread
    exact h
  digits := fun _ hread => by cases hread

theorem takes_failAt (fault : Fault) (cs at_ : Text) : Takes sort cs (failAt fault at_) where
  sort := fun _ _ hread => by cases hread
  rest := fun _ _ hread => by cases hread
  digits := fun _ hread => by cases hread

/-- Reading goes on behind what was taken. -/
theorem Takes.bind {next : α × Text → Except Stop (β × Text)} (h : Takes sort cs read)
    (hnext : ∀ a rest, sort a → rest <:+ cs → Takes sort' cs (next (a, rest))) :
    Takes sort' cs (read >>= next) where
  sort := fun b after hread => by
    obtain ⟨⟨a, rest⟩, hfirst, hread⟩ := except_bind_eq_ok_iff.1 hread
    exact (hnext a rest (h.sort a rest hfirst) (h.rest a rest hfirst)).sort b after hread
  rest := fun b after hread => by
    obtain ⟨⟨a, rest⟩, hfirst, hread⟩ := except_bind_eq_ok_iff.1 hread
    exact (hnext a rest (h.sort a rest hfirst) (h.rest a rest hfirst)).rest b after hread
  digits := fun count hread => by
    rcases except_bind_eq_error_iff.1 hread with hread | ⟨⟨a, rest⟩, hfirst, hread⟩
    · exact h.digits count hread
    · exact (hnext a rest (h.sort a rest hfirst) (h.rest a rest hfirst)).digits count hread

theorem skipSpace_suffix (cs : Text) : skipSpace cs <:+ cs := List.dropWhile_suffix _

/-- What stands behind the next character that is no space. -/
theorem suffix_of_skipSpace_eq {c : CodePoint} (h : skipSpace cs = c :: rest) : rest <:+ cs :=
  (List.suffix_cons ..).trans (h ▸ skipSpace_suffix cs)

/-! ## Strings -/

theorem hexFour?_suffix {n : Nat} (h : hexFour? cs = some (n, rest)) : rest <:+ cs := by
  unfold hexFour? at h
  split at h
  · simp only [Option.bind_eq_bind, Option.bind_eq_some_iff, Option.some.injEq, Prod.mk.injEq] at h
    obtain ⟨_, _, _, _, _, _, _, _, _, rfl⟩ := h
    exact ⟨[_, _, _, _], rfl⟩
  · cases h

theorem readString_takes (start : Text) (fuel : Nat) (read cs : Text) :
    Takes (fun _ => True) cs (readString start fuel read cs) := by
  fun_induction readString start fuel read cs with
  | case3 => exact takes_ok trivial (List.suffix_cons ..)
  | case6 _ _ rest _ _ _ _ hfour ih => exact ih.of_suffix ((hexFour?_suffix hfour).trans ⟨[.char '\\', .char 'u'], rfl⟩)
  | case8 _ _ rest _ more _ _ _ beyond hmore _ hfour ih =>
    have hbeyond : beyond <:+ rest :=
      (hexFour?_suffix hmore).trans (List.IsSuffix.trans ⟨[.char '\\', .char 'u'], rfl⟩ (hexFour?_suffix hfour))
    exact ih.of_suffix (hbeyond.trans ⟨[.char '\\', .char 'u'], rfl⟩)
  | case9 _ _ rest _ _ _ _ _ _ _ _ hfour ih =>
    exact ih.of_suffix ((hexFour?_suffix hfour).trans ⟨[.char '\\', .char 'u'], rfl⟩)
  | case10 _ _ rest _ _ hfour _ ih => exact ih.of_suffix ((hexFour?_suffix hfour).trans ⟨[.char '\\', .char 'u'], rfl⟩)
  | case12 _ _ c rest _ _ _ ih => exact ih.of_suffix ⟨[.char '\\', c], rfl⟩
  | case14 _ _ c rest _ _ _ _ _ ih => exact ih.of_suffix (List.suffix_cons ..)
  | _ => exact takes_failAt ..

/-! ## Numbers -/

theorem digits_eq (cs : Text) :
    cs = Text.ofChars (digits cs).1 ++ (digits cs).2 ∧ ∀ c ∈ (digits cs).1, isDigit c = true := by
  fun_induction digits cs with
  | case1 c rest hdigit ih => exact ⟨congrArg (_ :: ·) ih.1, List.forall_mem_cons.2 ⟨hdigit, ih.2⟩⟩
  | _ => simp

theorem digits_suffix (cs : Text) : (digits cs).2 <:+ cs := ⟨_, (digits_eq cs).1.symm⟩

theorem wholeDigits?_eq_some {whole : List Char} (h : wholeDigits? cs = some (whole, rest)) :
    cs = Text.ofChars whole ++ rest ∧ ∀ c ∈ whole, isDigit c = true := by
  unfold wholeDigits? at h
  split at h
  · cases h
    exact ⟨rfl, fun c hc => by rw [List.mem_singleton.1 hc]; rfl⟩
  · split at h
    · cases h
    · have heq := digits_eq cs
      rwa [Option.some.inj h] at heq

theorem fraction?_suffix {decimals : List Char} (h : fraction? cs = some (decimals, rest)) : rest <:+ cs := by
  unfold fraction? at h
  split at h
  · rename_i after
    split at h
    · cases h
    · have hsuffix := digits_suffix after
      rw [Option.some.inj h] at hsuffix
      exact hsuffix.trans (List.suffix_cons ..)
  · cases h

theorem exponentDigits_suffix {negative : Bool} {n : Int} (h : exponentDigits negative cs = some (n, rest)) :
    rest <:+ cs := by
  have hsuffix := digits_suffix cs
  unfold exponentDigits at h
  split at h
  · cases h
  · rename_i hdigits
    cases h
    rwa [hdigits] at hsuffix

theorem exponent?_suffix {n : Int} (h : exponent? cs = some (n, rest)) : rest <:+ cs := by
  unfold exponent? at h
  split at h
  · rename_i e after
    split at h
    · split at h
      · exact (exponentDigits_suffix h).trans ⟨[e, .char '+'], rfl⟩
      · exact (exponentDigits_suffix h).trans ⟨[e, .char '-'], rfl⟩
      · exact (exponentDigits_suffix h).trans (List.suffix_cons ..)
    · cases h
  · cases h

theorem natOf_lt {ds : List Char} (hds : ∀ c ∈ ds, isDigit c = true) : natOf ds < Nat.pow 10 ds.length := by
  suffices hfrom : ∀ n, ds.foldl (fun n c => n * 10 + (c.toNat - '0'.toNat)) n <
      (n + 1) * Nat.pow 10 ds.length by simpa [natOf] using hfrom 0
  induction ds with
  | nil => simp
  | cons d ds ih =>
    intro n
    obtain ⟨hd, hds⟩ := List.forall_mem_cons.1 hds
    have hdigit : d.toNat - '0'.toNat ≤ 9 := by
      have hle : d ≤ '9' := by simpa using (Bool.and_eq_true_iff.1 hd).2
      have : d.toNat ≤ '9'.toNat := hle
      have hnine : '9'.toNat = '0'.toNat + 9 := rfl
      omega
    calc ds.foldl (fun n c => n * 10 + (c.toNat - '0'.toNat)) (n * 10 + (d.toNat - '0'.toNat))
        < (n * 10 + (d.toNat - '0'.toNat) + 1) * Nat.pow 10 ds.length := ih hds _
      _ ≤ (n + 1) * 10 * Nat.pow 10 ds.length := Nat.mul_le_mul_right _ (by omega)
      _ = (n + 1) * Nat.pow 10 (d :: ds).length := by
        exact (Nat.mul_assoc ..).trans (congrArg _ Nat.pow_succ'.symm)

theorem natOf_lt_of_length_le {ds : List Char} {k : Nat} (hds : ∀ c ∈ ds, isDigit c = true)
    (h : ds.length ≤ k) : natOf ds < Nat.pow 10 k :=
  Nat.lt_of_lt_of_le (natOf_lt hds) (Nat.pow_le_pow_right (by decide) h)

/-- An integer that is not refused for its digits is one that can be written. -/
theorem isShort_natOf {ds : List Char} (hds : ∀ c ∈ ds, isDigit c = true) (hfew : ¬ maxIntDigits < ds.length)
    (negative : Bool) : Text.IsShort (if negative then -(natOf ds : Int) else natOf ds) := by
  have habs : (if negative then -(natOf ds : Int) else natOf ds).natAbs = natOf ds := by
    cases negative <;> simp
  rw [Text.IsShort, habs]
  exact natOf_lt_of_length_le hds (Nat.le_of_not_lt hfew)

/-- A number takes its digits, and stops at an integer only if they are too many. -/
theorem readNumber_takes (start : Text) (negative : Bool) (cs : Text) :
    Takes (¬ ·.HasLongInteger) cs (readNumber start negative cs) := by
  have hfloat (x : Binary64) : ¬ (Json.float x).HasLongInteger := fun h => by cases h
  unfold readNumber
  split
  · exact takes_failAt ..
  · rename_i whole afterWhole hwhole
    obtain ⟨rfl, hdigits⟩ := wholeDigits?_eq_some hwhole
    have hafter : afterWhole <:+ Text.ofChars whole ++ afterWhole := List.suffix_append ..
    cases hfraction : fraction? afterWhole with
    | some found =>
      have hfound := (fraction?_suffix hfraction).trans hafter
      dsimp only
      split
      · rename_i hexponent
        exact takes_ok (hfloat _) ((exponent?_suffix hexponent).trans hfound)
      · exact takes_ok (hfloat _) hfound
    | none =>
      dsimp only
      split
      · rename_i hexponent
        exact takes_ok (hfloat _) ((exponent?_suffix hexponent).trans hafter)
      · rw [if_neg Bool.false_ne_true]
        split
        · rename_i hmany
          constructor
          case sort =>
            intro _ _ h
            cases h
          case rest =>
            intro _ _ h
            cases h
          case digits =>
            intro count h
            cases h
            exact ⟨hmany, whole, rfl, hdigits, (List.prefix_append ..).isInfix⟩
        · rename_i hfew
          have hshort := isShort_natOf hdigits hfew negative
          exact takes_ok (fun hlong => hasLongInteger_int_iff.1 hlong hshort) hafter

/-! ## Values -/

/-- The words are no values with integers. -/
theorem readWord?_not_hasLongInteger {value : Json} (h : readWord? cs = some (value, rest)) :
    ¬ value.HasLongInteger := by
  obtain ⟨⟨word, value'⟩, hmem, hword⟩ := List.exists_of_findSome?_eq_some h
  obtain ⟨after, -, heq⟩ := Option.map_eq_some_iff.1 hword
  cases heq
  intro hlong
  simp only [words, List.mem_cons, Prod.mk.injEq, List.not_mem_nil, or_false] at hmem
  rcases hmem with ⟨-, rfl⟩ | ⟨-, rfl⟩ | ⟨-, rfl⟩ | ⟨-, rfl⟩ | ⟨-, rfl⟩ | ⟨-, rfl⟩ <;> cases hlong

theorem mem_putMember {members : List (Text × Json)} {key : Text} {value : Json} {m : Text × Json}
    (h : m ∈ putMember members key value) : m ∈ members ∨ m.2 = value := by
  fun_induction putMember members key value with
  | case1 => exact .inr (by rw [List.mem_singleton.1 h])
  | case2 v rest =>
    rcases List.mem_cons.1 h with rfl | h
    · exact .inr rfl
    · exact .inl (List.mem_cons_of_mem _ h)
  | case3 k v rest hne ih =>
    rcases List.mem_cons.1 h with rfl | h
    · exact .inl (List.mem_cons_self ..)
    · exact (ih h).imp_left (List.mem_cons_of_mem _)

theorem readWord?_suffix {value : Json} (h : readWord? cs = some (value, rest)) : rest <:+ cs := by
  obtain ⟨⟨word, value'⟩, -, hword⟩ := List.exists_of_findSome?_eq_some h
  obtain ⟨after, hafter, heq⟩ := Option.map_eq_some_iff.1 hword
  cases heq
  unfold word? at hafter
  split at hafter
  · cases hafter
    exact List.drop_suffix ..
  · cases hafter

/-- All readers of values take text from the front, with a limit on how deep values stand. -/
structure ReadersTake (fuel : Nat) : Prop where
  value : ∀ cs, Takes (¬ ·.HasLongInteger) cs (readValue fuel cs)
  items : ∀ read cs, (∀ v ∈ read, ¬ v.HasLongInteger) →
    Takes (¬ ·.HasLongInteger) cs (readItems fuel read cs)
  members : ∀ members cs, (∀ m ∈ members, ¬ m.2.HasLongInteger) →
    Takes (¬ ·.HasLongInteger) cs (readMembers fuel members cs)

theorem readValue_takes {fuel : Nat} (h : ReadersTake fuel) (cs : Text) :
    Takes (¬ ·.HasLongInteger) cs (readValue (fuel + 1) cs) := by
  rw [readValue.eq_def]
  dsimp only
  split
  · exact takes_failAt ..
  · refine ((readString_takes ..).of_suffix (List.suffix_cons ..)).bind fun s rest _ hrest => ?_
    exact takes_ok (fun hlong => by cases hlong) hrest
  · split
    · rename_i hspace
      refine takes_ok ?_ ((suffix_of_skipSpace_eq hspace).trans (List.suffix_cons ..))
      simp [hasLongInteger_obj_iff]
    · exact (h.members [] _ (by simp)).of_suffix ((skipSpace_suffix _).trans (List.suffix_cons ..))
  · split
    · rename_i hspace
      refine takes_ok ?_ ((suffix_of_skipSpace_eq hspace).trans (List.suffix_cons ..))
      simp [hasLongInteger_arr_iff]
    · exact (h.items [] _ (by simp)).of_suffix ((skipSpace_suffix _).trans (List.suffix_cons ..))
  · split
    · rename_i hword
      exact takes_ok (readWord?_not_hasLongInteger hword) (readWord?_suffix hword)
    · split
      · exact (readNumber_takes ..).of_suffix (List.suffix_cons ..)
      · exact readNumber_takes ..

theorem readItems_takes {fuel : Nat} (h : ReadersTake fuel) (read : List Json) (cs : Text)
    (hread : ∀ v ∈ read, ¬ v.HasLongInteger) : Takes (¬ ·.HasLongInteger) cs (readItems (fuel + 1) read cs) := by
  rw [readItems.eq_def]
  refine (h.value cs).bind fun v rest hv hrest => ?_
  have hall : ∀ w ∈ v :: read, ¬ w.HasLongInteger := List.forall_mem_cons.2 ⟨hv, hread⟩
  dsimp only
  split
  · rename_i heq
    refine takes_ok ?_ ((suffix_of_skipSpace_eq heq).trans hrest)
    rw [hasLongInteger_arr_iff]
    rintro ⟨w, hw, hlong⟩
    exact hall w (List.mem_reverse.1 hw) hlong
  · rename_i heq
    exact (h.items (v :: read) _ hall).of_suffix
      ((skipSpace_suffix _).trans ((suffix_of_skipSpace_eq heq).trans hrest))
  · exact takes_failAt ..

theorem readMembers_takes {fuel : Nat} (h : ReadersTake fuel) (members : List (Text × Json)) (cs : Text)
    (hread : ∀ m ∈ members, ¬ m.2.HasLongInteger) :
    Takes (¬ ·.HasLongInteger) cs (readMembers (fuel + 1) members cs) := by
  rw [readMembers.eq_def]
  dsimp only
  split
  · refine ((readString_takes ..).of_suffix (List.suffix_cons ..)).bind fun key rest _ hrest => ?_
    dsimp only
    split
    · rename_i heq
      have hvalue := (skipSpace_suffix _).trans ((suffix_of_skipSpace_eq heq).trans hrest)
      refine ((h.value _).of_suffix hvalue).bind fun v rest hv hrest => ?_
      have hall : ∀ m ∈ putMember members key v, ¬ m.2.HasLongInteger := fun m hm hlong =>
        (mem_putMember hm).elim (fun hm => hread m hm hlong) fun heq => hv (heq ▸ hlong)
      dsimp only
      split
      · rename_i heq
        refine takes_ok ?_ ((suffix_of_skipSpace_eq heq).trans hrest)
        rw [hasLongInteger_obj_iff]
        rintro ⟨m, hm, hlong⟩
        exact hall m hm hlong
      · rename_i heq
        exact (h.members _ _ hall).of_suffix
          ((skipSpace_suffix _).trans ((suffix_of_skipSpace_eq heq).trans hrest))
      · exact takes_failAt ..
    · exact takes_failAt ..
  · exact takes_failAt ..

theorem readers_take (fuel : Nat) : ReadersTake fuel := by
  induction fuel with
  | zero =>
    constructor
    case value =>
      intro cs
      exact takes_failAt .expectingValue cs cs
    case items =>
      intro read cs _
      exact takes_failAt .expectingValue cs cs
    case members =>
      intro members cs _
      exact takes_failAt .expectingValue cs cs
  | succ fuel ih => exact ⟨readValue_takes ih, readItems_takes ih, readMembers_takes ih⟩

/-- **Where reading a text stops at an integer of too many digits, these digits stand in the
text**, one after the other. -/
theorem digits_of_ofText {text : Text} {count : Nat} (h : ofText text = .error (.tooManyDigits count)) :
    HasDigits text count := by
  unfold ofText at h
  dsimp only at h
  split at h
  · cases h
  · have htakes := ((readers_take (2 * text.length + 2)).value _).of_suffix (skipSpace_suffix text)
    split at h
    · rename_i stop hread
      refine htakes.digits count ?_
      rw [hread]
      cases stop with
      | fault => cases h
      | tooManyDigits => cases h; rfl
    · split at h
      · cases h
      · cases h

/-- **A value that is read has no integer of too many digits.** -/
theorem not_hasLongInteger_of_ofText {text : Text} {v : Json} (h : ofText text = .ok v) :
    ¬ v.HasLongInteger := by
  unfold ofText at h
  dsimp only at h
  split at h
  · cases h
  · split at h
    · cases h
    · rename_i hread
      split at h
      · cases h
        exact ((readers_take (2 * text.length + 2)).value _).sort _ _ hread
      · cases h

end Reaching.Json
