/-
Reading rules from a file, and what a command makes of it.

Rules are read from a file exactly if it holds a text, the text is JSON, and the value is one of
rules. Every other file is announced to be faulty, but for three: one whose path holds a null byte,
one that is no text, and one with an integer of too many digits (`Rules.Baffles`). A value that was
read can always be shown, so what is wrong with it is always announced. With an announcement a
command ends in status 1; any other fault leaves it.
-/
import Reaching.CommandLine
import Reaching.Proofs.Lookup
import Reaching.Proofs.RuleReading

namespace Reaching

open CommandLine

namespace Rules

variable {fs : Files} {path : Path} {rules : Rules} {e : RulesFileError}

/-! ## Reading -/

/-- A file from which rules are read: its text is JSON for them. -/
theorem ofFile_eq_ok_iff : ofFile fs path = .ok rules ↔
    ∃ text value, fs.Holds path text ∧ Json.ofText text = .ok value ∧ ofJson value = .ok rules := by
  simp [ofFile, except_bind_eq_ok_iff, mapError_eq_ok_iff, Files.readText_eq_ok_iff]

/-- The faults of a file of rules, by the step at which they are met. -/
theorem ofFile_eq_error_iff : ofFile fs path = .error e ↔
    (∃ fault, fs.read path = .error fault ∧ .unreadable fault = e) ∨
    (∃ bytes fault, fs.read path = .ok bytes ∧ Text.ofUtf8 bytes = .error fault ∧ .notText fault = e) ∨
    (∃ text fault, fs.Holds path text ∧ Json.ofText text = .error fault ∧ .notJson path fault = e) ∨
    ∃ text value fault, fs.Holds path text ∧ Json.ofText text = .ok value ∧ ofJson value = .error fault ∧
      .notRules fault = e := by
  simp only [ofFile, except_bind_eq_error_iff, mapError_eq_error_iff, mapError_eq_ok_iff,
    Files.readText_eq_error_iff, Files.readText_eq_ok_iff]
  constructor
  · rintro (⟨_, ⟨fault, hfault, rfl⟩ | ⟨bytes, hbytes, fault, hfault, rfl⟩, rfl⟩ |
      ⟨text, htext, ⟨fault, hfault, rfl⟩ | ⟨value, hvalue, fault, hfault, rfl⟩⟩)
    · exact .inl ⟨fault, hfault, rfl⟩
    · exact .inr (.inl ⟨bytes, fault, hbytes, hfault, rfl⟩)
    · exact .inr (.inr (.inl ⟨text, fault, htext, hfault, rfl⟩))
    · exact .inr (.inr (.inr ⟨text, value, fault, htext, hvalue, hfault, rfl⟩))
  · rintro (⟨fault, hfault, rfl⟩ | ⟨bytes, fault, hbytes, hfault, rfl⟩ | ⟨text, fault, htext, hfault, rfl⟩ |
      ⟨text, value, fault, htext, hvalue, hfault, rfl⟩)
    · exact .inl ⟨_, .inl ⟨fault, hfault, rfl⟩, rfl⟩
    · exact .inl ⟨_, .inr ⟨bytes, hbytes, fault, hfault, rfl⟩, rfl⟩
    · exact .inr ⟨text, htext, .inl ⟨fault, hfault, rfl⟩⟩
    · exact .inr ⟨text, htext, .inr ⟨value, hvalue, fault, hfault, rfl⟩⟩

/-- What the reading of rules meets without announcing it. -/
inductive Baffles (fs : Files) (path : Path) : Prop where
  /-- A null byte in the path. -/
  | nullByte : path.hasNull = true → Baffles fs path
  /-- A file that is no text. -/
  | notText (bytes : List UInt8) : fs.read path = .ok bytes → ¬ Text.IsUtf8 bytes → Baffles fs path
  /-- A text with an integer of too many digits, at which reading stops. -/
  | tooManyDigits (text : String) (count : Nat) : fs.Holds path text →
      Json.ofText text = .error (.tooManyDigits count) → Json.HasDigits text count → Baffles fs path

/-- What is wrong with a value that was read is announced. -/
theorem isAnnounced_of_ofText {text : Text} {value : Json} {fault : RuleError} (hread : Json.ofText text = .ok value)
    (h : ofJson value = .error fault) : fault.isAnnounced = true := by
  cases fault with
  | notShown entry =>
    obtain ⟨⟨members, entries, rfl, hentries, hmem⟩, -, hlong⟩ := blames_of_ofJson h
    have hmember : ∃ m ∈ members, m.2 = .arr entries := by
      obtain ⟨m, hm, hvalue⟩ := Option.map_eq_some_iff.1 hentries
      exact ⟨m, List.mem_of_find?_eq_some hm, hvalue⟩
    obtain ⟨m, hm, hvalue⟩ := hmember
    exact absurd (.member hm (hvalue ▸ .item hmem hlong)) (Json.not_hasLongInteger_of_ofText hread)
  | _ => rfl

/-- A fault is not announced exactly if it is one of these. -/
theorem exists_unannounced_iff :
    (∃ e, ofFile fs path = .error e ∧ e.isAnnounced = false) ↔ Baffles fs path := by
  simp only [ofFile_eq_error_iff]
  constructor
  · rintro ⟨_, ⟨fault, hfault, rfl⟩ | ⟨bytes, fault, hbytes, hfault, rfl⟩ | ⟨text, fault, htext, hfault, rfl⟩ |
      ⟨text, value, fault, -, hread, hfault, rfl⟩, hunannounced⟩
    · refine .nullByte ((Files.exists_read_nullByte_iff fs).1 ⟨fault, hfault, ?_⟩)
      simpa [RulesFileError.isAnnounced] using hunannounced
    · exact .notText bytes hbytes (Text.exists_ofUtf8_eq_error_iff.1 ⟨fault, hfault⟩)
    · cases fault with
      | fault => cases hunannounced
      | tooManyDigits count => exact .tooManyDigits text count htext hfault (Json.digits_of_ofText hfault)
    · rw [RulesFileError.isAnnounced, isAnnounced_of_ofText hread hfault] at hunannounced
      cases hunannounced
  · rintro (hnull | ⟨bytes, hbytes, htext⟩ | ⟨text, count, htext, hvalue, -⟩)
    · obtain ⟨fault, hfault, hkind⟩ := (Files.exists_read_nullByte_iff fs).2 hnull
      exact ⟨_, .inl ⟨fault, hfault, rfl⟩, by simp [RulesFileError.isAnnounced, hkind]⟩
    · obtain ⟨fault, hfault⟩ := Text.exists_ofUtf8_eq_error_iff.2 htext
      exact ⟨_, .inr (.inl ⟨bytes, fault, hbytes, hfault, rfl⟩), rfl⟩
    · exact ⟨_, .inr (.inr (.inl ⟨text, _, htext, hvalue, rfl⟩)), rfl⟩

/-! ## Commands -/

/-- A fault is announced: every command that is given the file ends in status 1 with a message,
and writes nothing else. -/
structure Announces (fs : Files) (path : Path) (e : RulesFileError) : Prop where
  fails : ofFile fs path = .error e
  isAnnounced : e.isAnnounced = true
  ends : ∀ (o : Options) (library : PatternLibrary) (control : VersionControl), o.config = some path →
    runOptions fs o library control = .ok { status := 1, notices := [.failed e.message] }

/-- A fault is not announced: it leaves every command that is given the file. -/
structure Escapes (fs : Files) (path : Path) (e : RulesFileError) : Prop where
  fails : ofFile fs path = .error e
  isUnannounced : e.isAnnounced = false
  leaves : ∀ (o : Options) (library : PatternLibrary) (control : VersionControl), o.config = some path →
    runOptions fs o library control = .error (.rules e)

theorem runOptions_of_fault {o : Options} (library : PatternLibrary) (control : VersionControl)
    (hconfig : o.config = some path) (h : ofFile fs path = .error e) : runOptions fs o library control =
      if e.isAnnounced then .ok { status := 1, notices := [.failed e.message] } else .error (.rules e) := by
  have hchoose : chooseRules fs o = .error e := by
    rw [chooseRules, hconfig]
    exact except_bind_eq_error_iff.2 (.inl h)
  rw [runOptions, hchoose]

theorem announces_of_fault (h : ofFile fs path = .error e) (he : e.isAnnounced = true) :
    Announces fs path e :=
  ⟨h, he, fun o library control hconfig => by rw [runOptions_of_fault library control hconfig h, if_pos he]⟩

theorem escapes_of_fault (h : ofFile fs path = .error e) (he : e.isAnnounced = false) :
    Escapes fs path e :=
  ⟨h, he, fun o library control hconfig => by rw [runOptions_of_fault library control hconfig h, if_neg (by simp [he])]⟩

theorem Escapes.not_announced (h : Escapes fs path e) :
    ¬ ((∃ rules, ofFile fs path = .ok rules) ∨ ∃ e, Announces fs path e) := by
  rintro (⟨rules, hrules⟩ | ⟨fault, hfault⟩)
  · rw [h.fails] at hrules
    cases hrules
  · have heq := hfault.fails
    rw [h.fails] at heq
    cases heq
    exact absurd hfault.isAnnounced (by simp [h.isUnannounced])

/-- **The reading of rules gives the rules of the file, or announces what is wrong with it, for every
path and all bytes that it may lead to but these**: a path with a null byte, bytes that are no
text, and an integer of too many digits. Then the fault leaves the command. -/
theorem ofFile_announces_iff (fs : Files) (path : Path) :
    (∀ rules, ofFile fs path = .ok rules ↔
      ∃ text value, fs.Holds path text ∧ Json.ofText text = .ok value ∧ ofJson value = .ok rules) ∧
    (¬ Baffles fs path ↔ (∃ rules, ofFile fs path = .ok rules) ∨ ∃ e, Announces fs path e) ∧
    (Baffles fs path ↔ ∃ e, Escapes fs path e) := by
  have hescapes : Baffles fs path ↔ ∃ e, Escapes fs path e := by
    rw [← exists_unannounced_iff]
    exact exists_congr fun e => ⟨fun h => escapes_of_fault h.1 h.2, fun h => ⟨h.fails, h.isUnannounced⟩⟩
  refine ⟨fun rules => ofFile_eq_ok_iff, ⟨fun hno => ?_, fun h hbaffles => ?_⟩, hescapes⟩
  · cases hread : ofFile fs path with
    | ok rules => exact .inl ⟨rules, rfl⟩
    | error e =>
      cases he : e.isAnnounced with
      | true => exact .inr ⟨e, announces_of_fault hread he⟩
      | false => exact absurd (exists_unannounced_iff.1 ⟨e, hread, he⟩) hno
  · obtain ⟨e, he⟩ := hescapes.1 hbaffles
    exact he.not_announced h

/-- A file of rules whose only byte begins no character. -/
def oneByte : Files := Files.empty.write { names := ["r.json"] } [0xff]

/-- A file that is no text is not announced to be faulty: the fault leaves the command. -/
theorem oneByte_not_announced :
    Escapes oneByte { names := ["r.json"] } (.notText ⟨.badStart, 0, 0xff, 0⟩) ∧
      ¬ ((∃ rules, ofFile oneByte { names := ["r.json"] } = .ok rules) ∨
        ∃ e, Announces oneByte { names := ["r.json"] } e) := by
  have hread : oneByte.read { names := ["r.json"] } = .ok [0xff] := by rfl
  have htext : Text.ofUtf8 [0xff] = .error ⟨.badStart, 0, 0xff, 0⟩ := by
    rw [Text.ofUtf8, Text.utf8CharsFrom]
    rfl
  have hescapes : Escapes oneByte { names := ["r.json"] } (.notText ⟨.badStart, 0, 0xff, 0⟩) :=
    escapes_of_fault (ofFile_eq_error_iff.2 (.inr (.inl ⟨_, _, hread, htext, rfl⟩))) rfl
  exact ⟨hescapes, hescapes.not_announced⟩

end Rules
end Reaching
