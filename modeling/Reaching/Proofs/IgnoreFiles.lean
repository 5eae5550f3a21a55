/-
When the patterns of a project can be read.

What the lines of a file of patterns mean is left to a library. Without such a file a project has
the patterns of the built-in lines, which the library is taken to know. With it, a project has patterns
if the file holds a text and the library takes its lines; bytes that are no text and lines that the library
refuses are the only faults there are (`Ignore.exists_load_error_iff`). The library that the program is
run with takes the built-in lines, and refuses lines just when one of them is no pattern
(`Pattern.library_error_iff`).
-/
import Reaching.Ignore.Pattern
import Reaching.Proofs.Lookup

namespace Reaching

namespace Ignore

variable {library : PatternLibrary} {fs : Files} {project : Path}

/-- A library makes patterns of the built-in lines. -/
def KnowsDefault (library : PatternLibrary) : Prop := ∃ patterns, library defaultLines = .ok patterns

/-- Why the file of patterns of a project cannot be used. -/
inductive Spoils (library : PatternLibrary) (fs : Files) (project : Path) : Prop where
  /-- Its bytes are no text. -/
  | notText (bytes : List UInt8) : fs.read (project.below [fileName]) = .ok bytes →
      ¬ Text.IsUtf8 bytes → Spoils library fs project
  /-- The library refuses its lines. -/
  | notPatterns (text message : String) : fs.Holds (project.below [fileName]) text →
      library (Text.lines text) = .error message → Spoils library fs project

/-- A file of patterns is there, then. -/
theorem Spoils.isFile (h : Spoils library fs project) : fs.isFile (project.below [fileName]) = true := by
  rcases h with ⟨bytes, hbytes, -⟩ | ⟨text, -, ⟨held, hbytes, -⟩, -⟩
  all_goals exact Files.isFile_iff_read.2 ⟨_, hbytes⟩

/-- **The patterns of a project cannot be read exactly if its file of patterns is no text, or its lines
are refused.** -/
theorem exists_load_error_iff (hdefault : KnowsDefault library) :
    (∃ e, load library fs project = .error e) ↔ Spoils library fs project := by
  rw [load]
  split
  case isTrue hfile =>
    obtain ⟨bytes, hbytes⟩ := Files.isFile_iff_read.1 hfile
    simp only [except_bind_eq_error_iff, mapError_eq_error_iff, mapError_eq_ok_iff, Files.readText_eq_error_iff,
      Files.readText_eq_ok_iff]
    constructor
    · rintro ⟨_, ⟨_, ⟨fault, hfault, -⟩ | ⟨bytes, hbytes, fault, hfault, -⟩, -⟩ |
        ⟨text, htext, ⟨message, hrefused, -⟩ | ⟨_, _, hdone⟩⟩⟩
      · rw [hbytes] at hfault
        cases hfault
      · exact .notText bytes hbytes (Text.exists_ofUtf8_eq_error_iff.1 ⟨fault, hfault⟩)
      · exact .notPatterns text message htext hrefused
      · cases hdone
    · rintro (⟨bytes, hbytes, htext⟩ | ⟨text, message, htext, hrefused⟩)
      · obtain ⟨fault, hfault⟩ := Text.exists_ofUtf8_eq_error_iff.2 htext
        exact ⟨_, .inl ⟨_, .inr ⟨bytes, hbytes, fault, hfault, rfl⟩, rfl⟩⟩
      · exact ⟨_, .inr ⟨text, htext, .inl ⟨message, hrefused, rfl⟩⟩⟩
  case isFalse hfile =>
    obtain ⟨patterns, hpatterns⟩ := hdefault
    refine iff_of_false ?_ fun h => hfile h.isFile
    rw [hpatterns]
    rintro ⟨e, he⟩
    cases he

theorem exists_load_of_not_spoils (hdefault : KnowsDefault library) (h : ¬ Spoils library fs project) :
    ∃ ignore, load library fs project = .ok ignore := by
  cases hload : load library fs project with
  | ok ignore => exact ⟨ignore, rfl⟩
  | error e => exact absurd ((exists_load_error_iff hdefault).1 ⟨e, hload⟩) h

/-- A project without a file of patterns has patterns. -/
theorem exists_load_of_absent (hdefault : KnowsDefault library)
    (h : fs.isFile (project.below [fileName]) = false) : ∃ ignore, load library fs project = .ok ignore := by
  refine exists_load_of_not_spoils hdefault fun hspoils => ?_
  rw [hspoils.isFile] at h
  cases h

end Ignore

/-! ## The library of the program -/

namespace Pattern

/-- **Lines are refused exactly if one of them is no pattern.** -/
theorem library_error_iff {lines : List String} :
    (∃ message, library lines = .error message) ↔ ∃ line ∈ lines, ∃ e, ofLine line = .error e := by
  rw [← exists_mapM_eq_error_iff, library]
  cases lines.mapM ofLine <;> simp

theorem knowsDefault_library : Ignore.KnowsDefault library := by
  have hsome : (library Ignore.defaultLines).toOption.isSome = true := by decide +kernel
  cases h : library Ignore.defaultLines with
  | ok patterns => exact ⟨patterns, h⟩
  | error message =>
    rw [h] at hsome
    cases hsome

/-- Its faults are those of a file that is no text, and of a line that is no pattern. -/
theorem spoils_library_iff {fs : Files} {project : Path} : Ignore.Spoils library fs project ↔
    (∃ bytes, fs.read (project.below [Ignore.fileName]) = .ok bytes ∧ ¬ Text.IsUtf8 bytes) ∨
    ∃ text, fs.Holds (project.below [Ignore.fileName]) text ∧
      ∃ line ∈ Text.lines text, ∃ e, ofLine line = .error e := by
  simp only [← library_error_iff]
  constructor
  · rintro (⟨bytes, hbytes, htext⟩ | ⟨text, message, htext, hrefused⟩)
    · exact .inl ⟨bytes, hbytes, htext⟩
    · exact .inr ⟨text, htext, message, hrefused⟩
  · rintro (⟨bytes, hbytes, htext⟩ | ⟨text, htext, message, hrefused⟩)
    · exact .notText bytes hbytes htext
    · exact .notPatterns text message htext hrefused

end Pattern
end Reaching
