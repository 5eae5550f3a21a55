/-
Declarations that were written out.

A list of records is written as one line of JSON, as it is or with its quotes escaped, and put
into a literal behind an opening and in front of a quote. Reading the literal gives the records
back, whatever stands before and after them (`ofLiteral_written`).

Three things have to meet for this. The search has to find the list and no more: it begins behind
the first opening, and none stands earlier because an opening has no quote but its first character; it
ends at the last quote of the line, and the list is on one line (`hasPayload_of_line`). Taking the escapes
away has to give the list that was written: this knows nothing of JSON and would take any quote behind
a backslash for an escaped one, but a string without quotes and backslashes is written with none of these
(`Verbatim`). And reading the list has to give its records, which is the round trip of JSON text. It fails
of a name with the two halves of a surrogate pair in a row, for this is written like the one character that
they stand for (`pairedRecords_differ`).
-/
import Reaching.Proofs.Declarations
import Reaching.Proofs.JsonText

namespace Reaching

open Code

namespace Declaration

/-! ## Records -/

/-- What is written of a definition: its name, and its place with lines counted from the literal's. -/
structure Record where
  name : Text
  span : Span
  deriving DecidableEq, Repr

namespace Record

/-- What a record declares. Its columns are numbers. -/
def declared (r : Record) : Declared := ⟨r.name, r.span, {}⟩

def toJson (r : Record) : Json :=
  .obj [Json.entry "name" (.str r.name),
    Json.entry "pos" (.arr [.arr [.int r.span.firstLine, .int r.span.firstColumn],
      .arr [.int r.span.lastLine, .int r.span.lastColumn]])]

/-- The numbers of a record. -/
def numbers (r : Record) : List Int :=
  [r.span.firstLine, r.span.firstColumn, r.span.lastLine, r.span.lastColumn]

/-- A record with no quote and no backslash in its name, and with numbers that can be read. -/
structure Plain (r : Record) : Prop where
  noQuote : .char '"' ∉ r.name
  noBackslash : .char '\\' ∉ r.name
  readable : ∀ n ∈ r.numbers, Text.IsShort n

/-- A record that can be written into a literal: the halves of a surrogate pair do not stand in a
row in its name. -/
structure Writable (r : Record) : Prop extends r.Plain where
  unpaired : r.name.Unpaired

variable {r : Record}

theorem reads_toJson (r : Record) : r.declared.Reads r.toJson :=
  ⟨_, _, rfl, rfl, rfl, _, _, _, _, rfl, ⟨_, .int _⟩, .int _, ⟨_, .int _⟩, .int _⟩

theorem Writable.plain (h : r.Writable) : r.toJson.Plain := by
  have hnumber : ∀ n ∈ r.numbers, (Json.int n).Plain := h.readable
  simp only [numbers, List.forall_mem_cons] at hnumber
  obtain ⟨hline, hcolumn, hline', hcolumn', -⟩ := hnumber
  have hname : (Text.ofString "name").Unpaired := by decide
  have hpos : (Text.ofString "pos").Unpaired := by decide
  refine ⟨⟨hname, h.unpaired, hpos, ?_, trivial⟩, ?_⟩
  · exact ⟨⟨hline, hcolumn, trivial⟩, ⟨hline', hcolumn', trivial⟩, trivial⟩
  · exact (by decide : [Text.ofString "name", Text.ofString "pos"].Nodup)

end Record

/-- A list of records as one line of JSON. -/
def listText (records : List Record) : Text := Json.compact (.arr (records.map Record.toJson))

/-- A text with a backslash in front of every quote. -/
def escapeQuotes (text : Text) : Text := text.flatMap fun c => if c = .char '"' then escapedQuote else [c]

/-- The texts that a list of records is written as: the list as it is, or with its quotes escaped. -/
def spellings (records : List Record) : List Text := [listText records, escapeQuotes (listText records)]

/-! ## Escapes -/

/-- A text with escaped quotes does not begin with a quote. -/
theorem escapeQuotes_ne_cons (text tail : Text) : escapeQuotes text ≠ .char '"' :: tail := by
  cases text with
  | nil => exact List.cons_ne_nil _ _ ∘ Eq.symm
  | cons c text =>
    rw [escapeQuotes, List.flatMap_cons]
    split
    · simp [escapedQuote]
    · rename_i hc
      exact fun heq => hc (List.cons.inj heq).1

/-- **Taking the escapes away gives back any text** whose quotes were escaped. -/
theorem unescapeQuotes_escapeQuotes (text : Text) : unescapeQuotes (escapeQuotes text) = text := by
  induction text with
  | nil => rfl
  | cons c text ih =>
    by_cases hc : c = .char '"'
    · subst c
      exact congrArg (.char '"' :: ·) ih
    · have hkept : escapeQuotes (c :: text) = c :: escapeQuotes text := by simp [escapeQuotes, hc]
      rw [hkept, unescapeQuotes_cons, ih]
      rintro ⟨tail, htail⟩
      exact escapeQuotes_ne_cons text tail (List.cons.inj htail).2.symm

/-- A text on one line in which nothing counts as escaped, whatever follows it. -/
structure Verbatim (text : Text) : Prop where
  line : .char '\n' ∉ text
  kept : ∀ rest, unescapeQuotes (text ++ rest) = text ++ unescapeQuotes rest

namespace Verbatim

theorem nil : Verbatim [] := ⟨List.not_mem_nil, fun _ => rfl⟩

theorem append {text more : Text} (h : Verbatim text) (hmore : Verbatim more) :
    Verbatim (text ++ more) where
  line := by simp [h.line, hmore.line]
  kept rest := by rw [List.append_assoc, h.kept, hmore.kept, List.append_assoc]

theorem flatten {pieces : List Text} (h : ∀ piece ∈ pieces, Verbatim piece) :
    Verbatim pieces.flatten := by
  induction pieces with
  | nil => exact nil
  | cons piece pieces ih =>
    exact (h piece (List.mem_cons_self ..)).append (ih fun q hq => h q (List.mem_cons_of_mem piece hq))

/-- A character that escapes nothing. -/
theorem cons {c : CodePoint} {text : Text} (h : Verbatim text) (hslash : c ≠ .char '\\') (hline : c ≠ .char '\n') :
    Verbatim (c :: text) where
  line := by simp [hline.symm, h.line]
  kept rest := by
    rw [List.cons_append, unescapeQuotes_cons, h.kept, List.cons_append]
    rintro ⟨tail, htail⟩
    exact hslash (List.cons.inj htail).1.symm

/-- A backslash in front of something else than a quote. -/
theorem escape {c : CodePoint} {text : Text} (h : Verbatim (c :: text)) (hquote : c ≠ .char '"') :
    Verbatim (.char '\\' :: c :: text) where
  line := by simp [h.line]
  kept rest := by
    rw [List.cons_append, List.cons_append, unescapeQuotes_cons, ← List.cons_append, h.kept]
    · rfl
    · rintro ⟨tail, htail⟩
      exact hquote (List.cons.inj (List.cons.inj htail).2).1.symm

theorem of_forall {text : Text} (h : ∀ c ∈ text, c ≠ .char '\\' ∧ c ≠ .char '\n') : Verbatim text := by
  induction text with
  | nil => exact nil
  | cons c text ih =>
    obtain ⟨hslash, hline⟩ := h c (List.mem_cons_self ..)
    exact (ih fun d hd => h d (List.mem_cons_of_mem c hd)).cons hslash hline

/-- The same, for a text that is given. -/
theorem of_all {text : Text} (h : (text.all fun c => c ≠ .char '\\' && c ≠ .char '\n') = true) : Verbatim text :=
  of_forall fun c hc => by simpa using List.all_eq_true.1 h c hc

/-! ## What is written -/

/-- Hexadecimal digits are neither a backslash nor a line feed. -/
theorem digitChar_ne : ∀ {d : Nat}, d < 16 → Nat.digitChar d ≠ '\\' ∧ Nat.digitChar d ≠ '\n' := by decide

theorem of_chars {cs : List Char} (h : ∀ c ∈ cs, c ≠ '\\' ∧ c ≠ '\n') : Verbatim (Text.ofChars cs) := by
  refine of_forall fun c hc => ?_
  obtain ⟨d, hd, rfl⟩ := List.mem_map.1 hc
  simpa using h d hd

theorem escapeUnit {n : Nat} (h : n < 0x10000) : Verbatim (Text.ofString (Json.escapeUnit n)) := by
  rw [Json.ofString_escapeUnit]
  refine .escape (.cons (.of_chars fun c hc => ?_) (by decide) (by decide)) (by decide)
  rw [Json.toList_hex_four h, List.mem_map] at hc
  obtain ⟨d, hd, rfl⟩ := hc
  simp only [List.mem_cons, List.not_mem_nil, or_false] at hd
  exact digitChar_ne (by omega)

/-- Only a quote is written with a backslash in front of a quote. -/
theorem of_spells {c : CodePoint} {text : Text} (h : Json.Spells c text) (hquote : c ≠ .char '"')
    (hslash : c ≠ .char '\\') : Verbatim text := by
  cases h with
  | @letter e he =>
    have hquote' : e ≠ .char '"' := by
      rintro rfl
      exact hquote (Option.some.inj he).symm
    have hslash' : e ≠ .char '\\' := by
      rintro rfl
      exact hslash (Option.some.inj he).symm
    have hline : e ≠ .char '\n' := by
      rintro rfl
      cases he
    exact .escape (.cons .nil hslash' hline) hquote'
  | plain _ _ hcontrol =>
    refine .cons .nil hslash ?_
    rintro rfl
    exact absurd hcontrol (by decide)
  | unit hbasic => exact escapeUnit hbasic
  | pair hbeyond =>
    have := Json.number_lt c
    exact (escapeUnit (by omega)).append (escapeUnit (by omega))

theorem writeString {name : Text} (hquote : .char '"' ∉ name) (hslash : .char '\\' ∉ name) :
    Verbatim (Text.ofString (Json.writeString name)) := by
  have hwritten : ∀ cs : Text, .char '"' ∉ cs → .char '\\' ∉ cs → Verbatim (Json.written cs) := by
    intro cs hquote hslash
    induction cs with
    | nil => exact .nil
    | cons c cs ih =>
      rw [List.mem_cons, not_or] at hquote hslash
      have hfirst := of_spells (Json.spells_writeChar c) (Ne.symm hquote.1) (Ne.symm hslash.1)
      exact hfirst.append (ih hquote.2 hslash.2)
  rw [Json.ofString_writeString]
  exact .cons ((hwritten _ hquote hslash).append (.cons .nil (by decide) (by decide))) (by decide) (by decide)

theorem writeInt (n : Int) : Verbatim (Json.valueText (.int n)) := by
  have hdigits : ∀ m, Verbatim (Text.ofChars (Nat.toDigits 10 m)) := fun m => .of_chars fun c hc =>
    have hc := Json.isDigit_of_mem_toDigits hc
    ⟨Json.ne_of_isDigit hc rfl, Json.ne_of_isDigit hc rfl⟩
  cases n with
  | ofNat n => exact Json.valueText_ofNat n ▸ hdigits n
  | negSucc n => exact Json.valueText_negSucc n ▸ (hdigits (n + 1)).cons (by decide) (by decide)

end Verbatim

open Json in
/-- A record as it is written. -/
theorem valueText_record (r : Record) : valueText r.toJson =
    [.ofString "\x7b\"name\": ", .ofString (writeString r.name),
      .ofString ", \"pos\": [[", valueText (.int r.span.firstLine),
      .ofString ", ", valueText (.int r.span.firstColumn),
      .ofString "], [", valueText (.int r.span.lastLine),
      .ofString ", ", valueText (.int r.span.lastColumn),
      .ofString "]]\x7d"].flatten := by
  have hname : Text.ofString (writeString (Text.ofString "name")) = .ofString "\"name\"" := by decide
  have hpos : Text.ofString (writeString (Text.ofString "pos")) = .ofString "\"pos\"" := by decide
  rw [Record.toJson, Json.entry, Json.entry, valueText_obj, membersText_cons_cons, membersText_singleton,
    valueText_arr, itemsText_cons_cons, itemsText_singleton, valueText_arr, itemsText_cons_cons,
    itemsText_singleton, valueText_arr, itemsText_cons_cons, itemsText_singleton, hname, hpos]
  simp only [List.append_assoc, List.cons_append, List.nil_append, List.flatten_cons, List.flatten_nil]
  rfl

theorem Record.Plain.verbatim {r : Record} (h : r.Plain) : Verbatim (Json.valueText r.toJson) := by
  rw [valueText_record]
  refine .flatten ?_
  simp only [List.forall_mem_cons]
  exact ⟨.of_all (by decide), .writeString h.noQuote h.noBackslash, .of_all (by decide), .writeInt _,
    .of_all (by decide), .writeInt _, .of_all (by decide), .writeInt _, .of_all (by decide), .writeInt _,
    .of_all (by decide), fun _ hnil => absurd hnil List.not_mem_nil⟩

variable {records : List Record}

theorem verbatim_itemsText {r : Record} (h : ∀ q ∈ r :: records, q.Plain) :
    Verbatim (Json.itemsText (r.toJson :: records.map Record.toJson)) := by
  induction records generalizing r with
  | nil => exact Json.itemsText_singleton _ ▸ (h r (List.mem_cons_self ..)).verbatim
  | cons q records ih =>
    have hrest := ih fun q' hq' => h q' (List.mem_cons_of_mem r hq')
    rw [List.map_cons, Json.itemsText_cons_cons]
    exact (h r (List.mem_cons_self ..)).verbatim.append
      ((hrest.cons (by decide) (by decide)).cons (by decide) (by decide))

theorem verbatim_listText (h : ∀ r ∈ records, r.Plain) : Verbatim (listText records) := by
  cases records with
  | nil => exact .of_all (by decide)
  | cons r records =>
    have htext : listText (r :: records) =
        .char '[' :: (Json.itemsText (r.toJson :: records.map Record.toJson) ++ [.char ']']) :=
      Json.valueText_arr r.toJson (records.map Record.toJson)
    rw [htext]
    exact .cons ((verbatim_itemsText h).append (.cons .nil (by decide) (by decide))) (by decide) (by decide)

theorem ofText_listText (h : ∀ r ∈ records, r.Writable) :
    Json.ofText (listText records) = .ok (.arr (records.map Record.toJson)) := by
  refine Json.ofText_compact (Json.plainItems_of_forall fun v hv => ?_)
  obtain ⟨r, hr, rfl⟩ := List.mem_map.1 hv
  exact (h r hr).plain

/-! ## The place of the list -/

variable {before after payload : Text}

/-- The quote of an opening is its first character. -/
theorem eq_zero_of_opening : ∀ k < opening.length, opening[k]? = some (.char '"') → k = 0 := by decide

/-- No opening begins in front of another one that is the first of its text. -/
theorem not_prefix_drop (hbefore : ¬ opening <:+: before) {m : Nat} (hm : m < before.length)
    (rest : Text) : ¬ opening <+: (before ++ (opening ++ rest)).drop m := by
  intro hbegins
  by_cases hlong : opening.length ≤ before.length - m
  · rw [List.drop_append_of_le_length (Nat.le_of_lt hm)] at hbegins
    have hin : opening <+: before.drop m :=
      List.prefix_of_prefix_length_le hbegins (List.prefix_append ..) (by rwa [List.length_drop])
    exact hbefore (hin.isInfix.trans (List.drop_suffix m before).isInfix)
  · -- the first character of the other one would be a quote inside of this one
    have hquote : opening[before.length - m]? = some (.char '"') := by
      have hshort : before.length - m < opening.length := Nat.lt_of_not_le hlong
      rw [List.getElem?_eq_getElem hshort, ← List.prefix_iff_getElem?.1 hbegins _ hshort, List.getElem?_drop,
        Nat.add_sub_cancel' (Nat.le_of_lt hm), List.getElem?_append_right (Nat.le_refl _), Nat.sub_self]
      rfl
    have := eq_zero_of_opening _ (Nat.lt_of_not_le hlong) hquote
    omega

/-- **The search finds the list that was put there**, if no opening stands before it and no quote behind
it on its line. -/
theorem hasPayload_of_line (hbefore : ¬ opening <:+: before) (hpayload : .char '\n' ∉ payload)
    (hafter : .char '"' ∉ restOfLine after) :
    HasPayload (before ++ (opening ++ (payload ++ .char '"' :: after))) payload := by
  have hrest : (before ++ (opening ++ (payload ++ .char '"' :: after))).drop (before.length + opening.length) =
      payload ++ .char '"' :: after := by
    rw [← List.drop_drop, List.drop_left, List.drop_left]
  have hline : restOfLine (payload ++ .char '"' :: after) = payload ++ .char '"' :: restOfLine after := by
    have hall : ∀ c ∈ payload, decide (c ≠ .char '\n') = true := fun c hc =>
      decide_eq_true (ne_of_mem_of_not_mem hc hpayload)
    rw [restOfLine, List.takeWhile_append_of_pos hall, List.takeWhile_cons_of_pos (by decide), restOfLine]
  refine ⟨before.length, ⟨?_, ?_⟩, fun m hm hopens => ?_, restOfLine after, by rw [hrest, hline], hafter⟩
  · rw [List.drop_left]
    exact List.prefix_append ..
  · rw [hrest, hline]
    exact List.mem_append_right _ (List.mem_cons_self ..)
  · exact not_prefix_drop hbefore hm _ hopens.1

/-! ## Written literals -/

/-- Either spelling is one line, and with its escapes taken away it is the list. -/
theorem spelling_reads (h : ∀ r ∈ records, r.Plain) {list : Text} (hlist : list ∈ spellings records) :
    .char '\n' ∉ list ∧ unescapeQuotes list = listText records := by
  have hverbatim := verbatim_listText h
  rw [spellings, List.mem_pair] at hlist
  obtain rfl | rfl := hlist
  · exact ⟨hverbatim.line, by simpa [unescapeQuotes] using hverbatim.kept []⟩
  · refine ⟨fun hmem => ?_, unescapeQuotes_escapeQuotes _⟩
    obtain ⟨c, hc, hin⟩ := List.mem_flatMap.1 hmem
    split at hin
    · exact absurd hin (by decide)
    · exact hverbatim.line (List.mem_singleton.1 hin ▸ hc)

theorem declares_spelling (h : ∀ r ∈ records, r.Writable) (hbefore : ¬ opening <:+: before)
    (hafter : .char '"' ∉ restOfLine after) {list : Text} (hlist : list ∈ spellings records) :
    Declares (before ++ (opening ++ (list ++ .char '"' :: after))) (records.map Record.declared) := by
  obtain ⟨hline, hunescape⟩ := spelling_reads (fun r hr => (h r hr).toPlain) hlist
  refine ⟨list, listText records, records.map Record.toJson,
    hasPayload_of_line hbefore hline hafter, unescapeQuotes_eq_iff.1 hunescape, ofText_listText h, ?_⟩
  rw [List.forall₂_map_left_iff, List.forall₂_map_right_iff]
  exact List.forall₂_same.2 fun r _ => r.reads_toJson

/-- A literal with a list of records in it. -/
def holding (before list after : Text) : Text :=
  before ++ Text.ofString "\"defs: " ++ list ++ Text.ofString "\"" ++ after

/-- **A literal makes the definitions of the records that were written into it**: all of them, no other,
and it is not discarded. What stands before and behind the list does not matter, as long as no opening
stands before it and no quote behind it on its line. Either spelling does. -/
theorem ofLiteral_written (records : List Record) (hrecords : ∀ r ∈ records, r.Writable) (before after : Text)
    (hbefore : ¬ opening <:+: before) (hafter : .char '"' ∉ restOfLine after) :
    ∀ list ∈ spellings records,
      let text := holding before list after
      (∀ (line : Int) (owner : Stmt),
        ofLiteral text line owner = (records.map fun r => r.declared.definition line owner, [])) ∧
      ∀ (s : Stmt) (span : Span), s.literals = [(text, span)] →
        declaredDefinitions s =
          (.ofList (records.map fun r => r.declared.definition span.firstLine s), []) := by
  intro list hlist text
  have htext : text = before ++ (opening ++ (list ++ .char '"' :: after)) := by
    have hopening : Text.ofString "\"defs: " = opening := rfl
    have hquote : Text.ofString "\"" = [.char '"'] := rfl
    simp only [text, holding, hopening, hquote, List.append_assoc, List.singleton_append]
  have hliteral : ∀ (line : Int) (owner : Stmt),
      ofLiteral text line owner = (records.map fun r => r.declared.definition line owner, []) := by
    intro line owner
    have hread : read text = .declares (records.map Record.declared) :=
      read_eq_declares_iff.2 (htext ▸ declares_spelling hrecords hbefore hafter hlist)
    rw [ofLiteral, hread]
    simp only [List.map_map, Function.comp_def]
  clear_value text
  refine ⟨hliteral, fun s span hs => ?_⟩
  rw [declaredDefinitions, hs]
  simp only [List.map_cons, List.map_nil, List.flatMap_cons, List.flatMap_nil, hliteral, List.append_nil]

/-- The only literal of a statement that is one. -/
theorem literals_text (outer span : Span) (text : Text) (marked : Bool) :
    (Stmt.at outer (.expr (.at span (.constant (.text text marked))))).literals = [(text, span)] := by
  simp only [Stmt.literals, Node.breadthFirst, Node.levels, Node.children, StmtForm.children,
    ExprForm.children, List.flatMap_cons, List.flatMap_nil, List.nil_append, List.append_nil]
  rfl

/-- Two records, with names that are written with escapes, one of them by the second half of a pair
in front of the first. -/
def escapedRecords : List Record :=
  [⟨"rows\n", ⟨-1, 0, 2, 7⟩⟩, ⟨Text.ofString "naïve 🙂" ++ [.half 0x400, .half 0], ⟨0, 4, 0, 9⟩⟩]

/-- A literal with a list behind the beginning of an opening, and with more quotes on its next line. -/
def noted (list : Text) : Stmt :=
  .at ⟨10, 0, 11, 9⟩ (.expr (.at ⟨10, 0, 11, 9⟩
    (.constant (.text (holding "\"defs\"def" list " :\n\"defs: \"") false))))

theorem escapedRecords_written :
    (∀ r ∈ escapedRecords, r.Writable) ∧ ¬ opening <:+: Text.ofString "\"defs\"def" ∧
      .char '"' ∉ restOfLine (Text.ofString " :\n\"defs: \"") ∧
      ∀ list ∈ spellings escapedRecords, declaredDefinitions (noted list) =
        (.ofList [⟨"rows\n", ⟨9, 0, 12, 7⟩, .declared, noted list, {}⟩,
          ⟨Text.ofString "naïve 🙂" ++ [.half 0x400, .half 0], ⟨10, 4, 10, 9⟩, .declared, noted list, {}⟩],
          []) := by
  have hrecords : ∀ r ∈ escapedRecords, r.Writable := by
    rw [escapedRecords, List.forall_mem_cons, List.forall_mem_singleton]
    exact ⟨⟨⟨by decide, by decide, by decide +kernel⟩, by decide⟩,
      ⟨⟨by decide, by decide, by decide +kernel⟩, by decide⟩⟩
  have hbefore : ¬ opening <:+: Text.ofString "\"defs\"def" := by decide
  have hafter : .char '"' ∉ restOfLine (Text.ofString " :\n\"defs: \"") := by decide
  exact ⟨hrecords, hbefore, hafter, fun list hlist =>
    (ofLiteral_written escapedRecords hrecords _ _ hbefore hafter list hlist).2 (noted list) ⟨10, 0, 11, 9⟩
      (literals_text ..)⟩

/-- Two records at one place, one of them named by a character and the other one by its two halves. -/
def pairedRecords : List Record := [⟨"😀", ⟨0, 0, 0, 1⟩⟩, ⟨[.half 0x3d, .half 0x600], ⟨0, 0, 0, 1⟩⟩]

/-- Both are written alike, so that one definition is made where two were written. -/
theorem pairedRecords_differ :
    (∀ r ∈ pairedRecords, r.Plain) ∧
      let text := holding [] (listText pairedRecords) []
      let s : Stmt := .at ⟨1, 0, 1, 9⟩ (.expr (.at ⟨1, 0, 1, 9⟩ (.constant (.text text false))))
      s.literals = [(text, ⟨1, 0, 1, 9⟩)] ∧
      (declaredDefinitions s).1.identities = [⟨"😀", ⟨1, 0, 1, 1⟩⟩] ∧
      (Definitions.ofList (pairedRecords.map fun r => r.declared.definition 1 s)).identities =
        [⟨"😀", ⟨1, 0, 1, 1⟩⟩, ⟨[.half 0x3d, .half 0x600], ⟨1, 0, 1, 1⟩⟩] := by
  have hrecords : ∀ r ∈ pairedRecords, r.Plain := by
    rw [pairedRecords, List.forall_mem_cons, List.forall_mem_singleton]
    exact ⟨⟨by decide, by decide, by decide +kernel⟩, ⟨by decide, by decide, by decide +kernel⟩⟩
  refine ⟨hrecords, ?_⟩
  intro text s
  exact ⟨literals_text .., by decide +kernel, by decide +kernel⟩

end Declaration

end Reaching
