/-
Keys tell spans and edges apart.

A key is four decimal numbers with a mark between any two. The hyphen in the middle is
the sign of a negative number too, and it begins the arrow in the key of an edge. Still a
key reads in one way only. A number stands at the front of what is left of the text: its
sign can only be the first character, its digits go on to the first character that is no
digit, and every mark is such a character (`toString_append_inj`). A column that was given as a truth
value is read off as well, by its first letter (`columnSpelling_append_inj`). So spans can be read off
the front of any text that does not go on with a digit (`Span.spelling_append_inj`), and edges
are two of them.

All this is about how spans are spelled. A span has a key only if its integers are short enough
to be written (`Span.key?_eq_some_iff`).
-/
import Reaching.Slice

namespace Reaching

/-! ## Numbers at the front of a text -/

/-- A text that does not go on with a digit. -/
def NoDigit (rest : List Char) : Prop := ∀ c ∈ rest.head?, c.isDigit = false

theorem noDigit_nil : NoDigit [] := fun _ hc => nomatch hc

theorem noDigit_cons {c : Char} (hc : c.isDigit = false) (rest : List Char) : NoDigit (c :: rest) :=
  fun d hd => (Option.some.inj hd : c = d) ▸ hc

variable {u v : List Char}

theorem NoDigit.takeWhile (h : NoDigit u) : u.takeWhile Char.isDigit = [] := by
  cases u with
  | nil => rfl
  | cons c rest => simp [h c rfl]

/-- The digits of a number are all the digits at the front of the text. -/
theorem takeWhile_toDigits (n : Nat) (hu : NoDigit u) :
    (Nat.toDigits 10 n ++ u).takeWhile Char.isDigit = Nat.toDigits 10 n := by
  have hdigits : ∀ c ∈ Nat.toDigits 10 n, c.isDigit = true := fun c hc =>
    Nat.isDigit_of_mem_toDigits (by decide) (by decide) hc
  rw [List.takeWhile_append_of_pos hdigits, hu.takeWhile, List.append_nil]

theorem toDigits_append_inj {m n : Nat} (hu : NoDigit u) (hv : NoDigit v)
    (h : Nat.toDigits 10 m ++ u = Nat.toDigits 10 n ++ v) : m = n ∧ u = v := by
  have hdigits : Nat.toDigits 10 m = Nat.toDigits 10 n := by
    rw [← takeWhile_toDigits m hu, h, takeWhile_toDigits n hv]
  refine ⟨?_, List.append_cancel_left (hdigits ▸ h)⟩
  calc
    m = Nat.ofDigitChars 10 (Nat.toDigits 10 m) 0 := Nat.ofDigitChars_ten_toDigits.symm
    _ = Nat.ofDigitChars 10 (Nat.toDigits 10 n) 0 := by rw [hdigits]
    _ = n := Nat.ofDigitChars_ten_toDigits

theorem toList_toString_ofNat (n : Nat) : (toString (Int.ofNat n)).toList = Nat.toDigits 10 n :=
  Nat.toList_repr

theorem toList_toString_negSucc (n : Nat) :
    (toString (Int.negSucc n)).toList = '-' :: Nat.toDigits 10 (n + 1) := by
  have hsign : (toString (Int.negSucc n)).toList = ("-" ++ (n + 1).repr).toList := rfl
  rw [hsign, String.toList_append, Nat.toList_repr]
  rfl

/-- No number starts with a sign and with a digit. -/
theorem toDigits_append_ne (m : Nat) (rest : List Char) : Nat.toDigits 10 m ++ u ≠ '-' :: rest := by
  obtain ⟨c, digits, hdigits⟩ := List.exists_cons_of_ne_nil (@Nat.toDigits_ne_nil m 10)
  have hc : c.isDigit = true :=
    Nat.isDigit_of_mem_toDigits (by decide) (by decide) (hdigits ▸ List.mem_cons_self ..)
  intro h
  rw [hdigits, List.cons_append] at h
  rw [(List.cons.inj h).1] at hc
  exact absurd hc (by decide)

/-- **An integer can be read off the front of a text** that does not go on with a digit,
whatever its sign. -/
theorem toString_append_inj {m n : Int} (hu : NoDigit u) (hv : NoDigit v)
    (h : (toString m).toList ++ u = (toString n).toList ++ v) : m = n ∧ u = v := by
  cases m with
  | ofNat m =>
    rw [toList_toString_ofNat] at h
    cases n with
    | ofNat n =>
      rw [toList_toString_ofNat] at h
      obtain ⟨rfl, rfl⟩ := toDigits_append_inj hu hv h
      exact ⟨rfl, rfl⟩
    | negSucc n =>
      rw [toList_toString_negSucc] at h
      exact absurd h (toDigits_append_ne m _)
  | negSucc m =>
    rw [toList_toString_negSucc] at h
    cases n with
    | ofNat n =>
      rw [toList_toString_ofNat] at h
      exact absurd h.symm (toDigits_append_ne n _)
    | negSucc n =>
      rw [toList_toString_negSucc] at h
      obtain ⟨hmn, rfl⟩ := toDigits_append_inj hu hv (List.cons.inj h).2
      exact ⟨congrArg Int.negSucc (Nat.succ.inj hmn), rfl⟩

/-! ## Columns -/

/-- How a column is spelled, however long it is. -/
def columnSpelling (isTruth : Bool) (column : Int) : String :=
  if isTruth then (if column = 0 then "False" else "True") else toString column

theorem Text.decimal?_eq_some_iff {n : Int} {text : String} :
    decimal? n = some text ↔ IsShort n ∧ toString n = text := by
  simp [decimal?]

theorem columnText?_eq_some_iff {isTruth : Bool} {column : Int} {text : String} :
    columnText? isTruth column = some text ↔
      (isTruth = false → Text.IsShort column) ∧ columnSpelling isTruth column = text := by
  cases isTruth with
  | true => simp [columnText?, columnSpelling]
  | false => simp [columnText?, columnSpelling, Text.decimal?_eq_some_iff]

section
variable {t t' : Bool} {m n : Int}

/-- A truth value starts with a letter, a number with a sign or a digit. -/
theorem exists_columnSpelling (t : Bool) (n : Int) :
    ∃ c rest, (columnSpelling t n).toList = c :: rest ∧ (t = true ↔ c = 'F' ∨ c = 'T') := by
  cases t with
  | true =>
    by_cases hn : n = 0
    · exact ⟨'F', "alse".toList, by rw [columnSpelling, if_pos rfl, if_pos hn]; rfl, by simp⟩
    · exact ⟨'T', "rue".toList, by rw [columnSpelling, if_pos rfl, if_neg hn]; rfl, by simp⟩
  | false =>
    have htext : (columnSpelling false n).toList = (toString n).toList := rfl
    rw [htext]
    cases n with
    | ofNat n =>
      obtain ⟨c, rest, hdigits⟩ := List.exists_cons_of_ne_nil (@Nat.toDigits_ne_nil n 10)
      have hc : c.isDigit = true :=
        Nat.isDigit_of_mem_toDigits (by decide) (by decide) (hdigits ▸ List.mem_cons_self ..)
      refine ⟨c, rest, (toList_toString_ofNat n).trans hdigits, iff_of_false Bool.false_ne_true ?_⟩
      rintro (rfl | rfl) <;> exact absurd hc (by decide)
    | negSucc n => exact ⟨'-', _, toList_toString_negSucc n, by simp⟩

/-- **A column can be read off the front of a text** that does not go on with a digit, and so can
whether it was given as a truth value. -/
theorem columnSpelling_append_inj (hm : t = true → m = 0 ∨ m = 1) (hn : t' = true → n = 0 ∨ n = 1)
    (hu : NoDigit u) (hv : NoDigit v)
    (h : (columnSpelling t m).toList ++ u = (columnSpelling t' n).toList ++ v) :
    t = t' ∧ m = n ∧ u = v := by
  have hgiven : t = t' := by
    obtain ⟨c, rest, hc, ht⟩ := exists_columnSpelling t m
    obtain ⟨d, rest', hd, ht'⟩ := exists_columnSpelling t' n
    rw [hc, hd, List.cons_append, List.cons_append] at h
    rw [Bool.eq_iff_iff, ht, ht', (List.cons.inj h).1]
  subst hgiven
  refine ⟨rfl, ?_⟩
  cases t with
  | false => exact toString_append_inj hu hv h
  | true =>
    have hfalse : (columnSpelling true 0).toList = ['F', 'a', 'l', 's', 'e'] := rfl
    have htrue : (columnSpelling true 1).toList = ['T', 'r', 'u', 'e'] := rfl
    rcases hm rfl with rfl | rfl <;> rcases hn rfl with rfl | rfl
    · exact ⟨rfl, List.append_cancel_left h⟩
    · rw [hfalse, htrue] at h
      cases h
    · rw [hfalse, htrue] at h
      cases h
    · exact ⟨rfl, List.append_cancel_left h⟩

end

/-! ## Spans -/

namespace Span

/-- The columns of a span that were given as truth values are zero or one. -/
structure Fits (s : Span) (truths : TruthColumns) : Prop where
  first : truths.first = true → s.firstColumn = 0 ∨ s.firstColumn = 1
  last : truths.last = true → s.lastColumn = 0 ∨ s.lastColumn = 1

/-- The integers of a span that are written in digits are short enough for it. -/
structure Writable (s : Span) (truths : TruthColumns) : Prop where
  firstLine : Text.IsShort s.firstLine
  firstColumn : truths.first = false → Text.IsShort s.firstColumn
  lastLine : Text.IsShort s.lastLine
  lastColumn : truths.last = false → Text.IsShort s.lastColumn

/-- How a span is spelled, however long its integers are. -/
def spelling (s : Span) (truths : TruthColumns) : String :=
  toString s.firstLine ++ ":" ++ columnSpelling truths.first s.firstColumn ++ "-" ++
    toString s.lastLine ++ ":" ++ columnSpelling truths.last s.lastColumn

variable {s t : Span} {truths truths' : TruthColumns} {k : String}

theorem fits_of_numbers (s : Span) : s.Fits {} := ⟨nofun, nofun⟩

theorem writable_iff : s.Writable {} ↔ ∀ n ∈ s.numbers, Text.IsShort n := by
  rw [numbers, List.forall_mem_cons, List.forall_mem_cons, List.forall_mem_cons, List.forall_mem_singleton]
  exact ⟨fun h => ⟨h.firstLine, h.firstColumn rfl, h.lastLine, h.lastColumn rfl⟩,
    fun h => ⟨h.1, fun _ => h.2.1, h.2.2.1, fun _ => h.2.2.2⟩⟩

/-- **A span has its spelling for a key, if its integers can be written**, and none otherwise. -/
theorem key?_eq_some_iff : s.key? truths = some k ↔ s.Writable truths ∧ s.spelling truths = k := by
  simp only [key?, Option.bind_eq_bind, Option.bind_eq_some_iff, Text.decimal?_eq_some_iff,
    columnText?_eq_some_iff, Option.some.injEq]
  constructor
  · rintro ⟨_, ⟨hline, rfl⟩, _, ⟨hcolumn, rfl⟩, _, ⟨hlast, rfl⟩, _, ⟨hend, rfl⟩, rfl⟩
    exact ⟨⟨hline, hcolumn, hlast, hend⟩, rfl⟩
  · rintro ⟨h, rfl⟩
    exact ⟨_, ⟨h.firstLine, rfl⟩, _, ⟨h.firstColumn, rfl⟩, _, ⟨h.lastLine, rfl⟩, _, ⟨h.lastColumn, rfl⟩, rfl⟩

theorem isSome_key?_iff : (s.key? truths).isSome = true ↔ s.Writable truths := by
  rw [Option.isSome_iff_exists]
  simp [key?_eq_some_iff]

theorem toList_spelling (s : Span) (truths : TruthColumns) : (s.spelling truths).toList =
    (toString s.firstLine).toList ++ ':' :: ((columnSpelling truths.first s.firstColumn).toList ++ '-' ::
      ((toString s.lastLine).toList ++ ':' :: (columnSpelling truths.last s.lastColumn).toList)) := by
  have hcolon : ":".toList = [':'] := rfl
  have hhyphen : "-".toList = ['-'] := rfl
  simp only [spelling, String.toList_append, hcolon, hhyphen, List.append_assoc, List.cons_append,
    List.nil_append]

/-- **A span can be read off the front of a text** that does not go on with a digit, and so can
which of its columns were given as truth values. -/
theorem spelling_append_inj (hs : s.Fits truths) (ht : t.Fits truths') (hu : NoDigit u) (hv : NoDigit v)
    (h : (s.spelling truths).toList ++ u = (t.spelling truths').toList ++ v) :
    s = t ∧ truths = truths' ∧ u = v := by
  have colon := fun rest => noDigit_cons (c := ':') rfl rest
  have hyphen := fun rest => noDigit_cons (c := '-') rfl rest
  simp only [toList_spelling, List.append_assoc, List.cons_append] at h
  obtain ⟨hline, h⟩ := toString_append_inj (colon _) (colon _) h
  obtain ⟨hfirst, hcolumn, h⟩ :=
    columnSpelling_append_inj hs.first ht.first (hyphen _) (hyphen _) (List.cons.inj h).2
  obtain ⟨hlastLine, h⟩ := toString_append_inj (colon _) (colon _) (List.cons.inj h).2
  obtain ⟨hlast, hend, rfl⟩ := columnSpelling_append_inj hs.last ht.last hu hv (List.cons.inj h).2
  exact ⟨(Span.mk.injEq ..).mpr ⟨hline, hcolumn, hlastLine, hend⟩,
    (TruthColumns.mk.injEq ..).mpr ⟨hfirst, hlast⟩, rfl⟩

theorem spelling_inj (hs : s.Fits truths) (ht : t.Fits truths') :
    s.spelling truths = t.spelling truths' ↔ s = t ∧ truths = truths' := by
  constructor
  · intro h
    have h := spelling_append_inj hs ht noDigit_nil noDigit_nil (by rw [h])
    exact ⟨h.1, h.2.1⟩
  · rintro ⟨rfl, rfl⟩
    rfl

/-- **A key says what the span is and which columns were given as truth values**, and nothing
else. -/
theorem key?_eq_key?_iff (hs : s.Fits truths) (ht : t.Fits truths') (h : s.key? truths = some k) :
    t.key? truths' = some k ↔ s = t ∧ truths = truths' := by
  obtain ⟨hwritable, rfl⟩ := key?_eq_some_iff.1 h
  rw [key?_eq_some_iff, eq_comm, spelling_inj hs ht]
  refine and_iff_right_of_imp ?_
  rintro ⟨rfl, rfl⟩
  exact hwritable

end Span

/-! ## Edges -/

namespace Edge

variable {e f : Edge} {k : String}

/-- How an edge is spelled, however long its integers are. -/
def spelling (e : Edge) : String := e.source.spelling {} ++ "->" ++ e.target.spelling {}

theorem key?_eq_some_iff :
    e.key? = some k ↔ e.source.Writable {} ∧ e.target.Writable {} ∧ e.spelling = k := by
  simp only [key?, Option.bind_eq_bind, Option.bind_eq_some_iff, Span.key?_eq_some_iff, Option.some.injEq]
  constructor
  · rintro ⟨_, ⟨hsource, rfl⟩, _, ⟨htarget, rfl⟩, rfl⟩
    exact ⟨hsource, htarget, rfl⟩
  · rintro ⟨hsource, htarget, rfl⟩
    exact ⟨_, ⟨hsource, rfl⟩, _, ⟨htarget, rfl⟩, rfl⟩

theorem toList_spelling (e : Edge) : e.spelling.toList =
    (e.source.spelling {}).toList ++ '-' :: '>' :: (e.target.spelling {}).toList := by
  have harrow : "->".toList = ['-', '>'] := rfl
  simp only [spelling, String.toList_append, harrow, List.append_assoc, List.cons_append, List.nil_append]

theorem spelling_inj : e.spelling = f.spelling ↔ e.source = f.source ∧ e.target = f.target := by
  constructor
  · intro h
    have htexts := congrArg String.toList h
    rw [toList_spelling, toList_spelling] at htexts
    obtain ⟨hsource, -, hrest⟩ := Span.spelling_append_inj (Span.fits_of_numbers _) (Span.fits_of_numbers _)
      (noDigit_cons rfl _) (noDigit_cons rfl _) htexts
    have htarget := String.toList_inj.1 (List.cons.inj (List.cons.inj hrest).2).2
    exact ⟨hsource, ((Span.spelling_inj (Span.fits_of_numbers _) (Span.fits_of_numbers _)).1 htarget).1⟩
  · rintro ⟨hsource, htarget⟩
    rw [spelling, spelling, hsource, htarget]

/-- **Keys identify spans and edges.** A span has a key just if none of its integers has too many
digits, whatever their signs; and no other span has the same key. An edge has a key just if both of
its spans have one; and another edge has the same key just if it comes from the same span and leads
to the same span. -/
theorem keys_exact :
    (∀ s : Span, s.key?.isSome = true ↔ ∀ n ∈ s.numbers, Text.IsShort n) ∧
    (∀ (s t : Span) k, s.key? = some k → (t.key? = some k ↔ s = t)) ∧
    (∀ e : Edge, e.key?.isSome = true ↔ e.source.key?.isSome = true ∧ e.target.key?.isSome = true) ∧
    ∀ (e f : Edge) k, e.key? = some k → (f.key? = some k ↔ e.source = f.source ∧ e.target = f.target) := by
  refine ⟨fun s => Span.isSome_key?_iff.trans Span.writable_iff, fun s t k h => ?_, fun e => ?_, fun e f k h => ?_⟩
  · rw [Span.key?_eq_key?_iff s.fits_of_numbers t.fits_of_numbers h, and_iff_left rfl]
  · rw [Span.isSome_key?_iff, Span.isSome_key?_iff, Option.isSome_iff_exists]
    simp [key?_eq_some_iff]
  · obtain ⟨hsource, htarget, rfl⟩ := key?_eq_some_iff.1 h
    rw [key?_eq_some_iff, eq_comm (a := f.spelling), spelling_inj, ← and_assoc]
    refine and_iff_right_of_imp fun hsame => ?_
    rw [← hsame.1, ← hsame.2]
    exact ⟨hsource, htarget⟩

/-- Two edges with the same four integers on either end, and with a sign behind a hyphen and in front
of one: they have keys, and these are different. -/
theorem keys_exact_of_signs :
    let s : Span := ⟨1, -2, -3, 4⟩
    let t : Span := ⟨-1, 2, 3, -4⟩
    (⟨s, t⟩ : Edge).key? = some "1:-2--3:4->-1:2-3:-4" ∧ (⟨t, s⟩ : Edge).key? ≠ (⟨s, t⟩ : Edge).key? := by
  intro s t
  have hkey : (⟨s, t⟩ : Edge).key? = some "1:-2--3:4->-1:2-3:-4" := by decide +kernel
  refine ⟨hkey, fun h => ?_⟩
  have hsame := (keys_exact.2.2.2 ⟨s, t⟩ ⟨t, s⟩ _ hkey).1 (h.trans hkey)
  exact absurd hsame.1 (by decide)

end Edge

/-- A span with an integer of too many digits has no key, so the same span twice has no text in
common; and one span has two keys, if a column of it is given as a number and as a truth value. -/
theorem Span.keys_fail :
    (⟨Nat.pow 10 Text.maxDigits, 0, 1, 0⟩ : Span).key? = none ∧
    (⟨1, 1, 1, 2⟩ : Span).key? = some "1:1-1:2" ∧
    (⟨1, 1, 1, 2⟩ : Span).key? ⟨true, false⟩ = some "1:True-1:2" ∧
    (¬ ∀ s t : Span, (∃ k, s.key? = some k ∧ t.key? = some k) ↔ s = t) ∧
    ¬ ∀ (s t : Span) (truths truths' : TruthColumns), s.key? truths = t.key? truths' ↔ s = t := by
  have hlong : (⟨Nat.pow 10 Text.maxDigits, 0, 1, 0⟩ : Span).key? = none := by decide +kernel
  have hnumber : (⟨1, 1, 1, 2⟩ : Span).key? = some "1:1-1:2" := by decide +kernel
  have htruth : (⟨1, 1, 1, 2⟩ : Span).key? ⟨true, false⟩ = some "1:True-1:2" := by decide +kernel
  refine ⟨hlong, hnumber, htruth, fun h => ?_, fun h => ?_⟩
  · obtain ⟨k, hk, -⟩ := (h _ _).2 (rfl : (⟨Nat.pow 10 Text.maxDigits, 0, 1, 0⟩ : Span) = _)
    rw [hlong] at hk
    cases hk
  · have hsame := (h ⟨1, 1, 1, 2⟩ ⟨1, 1, 1, 2⟩ {} ⟨true, false⟩).2 rfl
    rw [hnumber, htruth] at hsame
    exact absurd hsame (by decide)

end Reaching
