/-
The run of a folder is the runs of its files put together.

A folder and a single file come to the same analysis of each file, with the same rules and the
same options. What is left is to say which files a folder considers, and that a file which cannot be
analysed changes nothing for the others: the reports stand in order as they are printed for the
files alone, and each other file has a warning with the message that its own run ends with
(`runOptions_folder`). How patterns cover paths plays no part in this: it holds with every library of
patterns.
-/
import Reaching.CommandLine
import Reaching.Proofs.IgnoreFiles

namespace Reaching

namespace CommandLine

/-! ## Single files -/

variable {library : PatternLibrary} {fs : Files} {o : Options} {rules : Rules} {file : Path}

/-- How the analysis of a file ends: with its report, or with a message. -/
def fileEnd (fs : Files) (o : Options) (rules : Rules) (file : Path) : Except String Json :=
  (reportOn fs o rules file).1.mapError ReportError.message

/-- The notices of a run that are not for those only who ask for details. -/
def Run.shown (r : Run) : List Notice := r.notices.filter (!·.isDetail)

/-- A run ends as the analysis of its file does: it writes the report and nothing else, or
it tells the message. -/
def Run.Ends (r : Run) : Except String Json → Prop
  | .ok value => r.status = 0 ∧ r.output = .report value ∧ r.shown = []
  | .error message => r.status = 1 ∧ r.output = .nothing ∧ r.shown = [.failed message]

/-- The run of a folder puts together how the analyses of files end. -/
structure Run.PutsTogether (r : Run) (ends : List (Path × Except String Json)) : Prop where
  /-- The reports are those of the files that have one, in order. -/
  output : r.output = .reports (ends.filterMap fun p => p.2.toOption)
  /-- Each other file has a warning with its message. -/
  shown : r.shown = ends.filterMap fun p =>
    match p.2 with
    | .ok _ => none
    | .error message => some (.skipped p.1 message)
  /-- The status tells whether there is such a file. -/
  status : r.status = 0 ∨ r.status = 1
  status_eq_zero_iff : r.status = 0 ↔ ∀ p ∈ ends, ∃ value, p.2 = .ok value

theorem filter_details (a : Analysis) : (details a).filter (!·.isDetail) = [] := by
  simp [details, Notice.isDetail]

/-- On the way to a report only details are told. -/
theorem filter_reportOn (fs : Files) (o : Options) (rules : Rules) (file : Path) :
    (reportOn fs o rules file).2.filter (!·.isDetail) = [] := by
  rw [reportOn]
  split
  · rfl
  · split <;> exact filter_details _

theorem runFile_ends (fs : Files) (o : Options) (rules : Rules) (file : Path) :
    (runFile fs o rules file).Ends (fileEnd fs o rules file) := by
  have htold := filter_reportOn fs o rules file
  rw [runFile, fileEnd]
  generalize reportOn fs o rules file = report at htold ⊢
  obtain ⟨found, told⟩ := report
  cases found with
  | ok value => exact ⟨rfl, rfl, htold⟩
  | error e =>
    refine ⟨rfl, rfl, ?_⟩
    rw [Run.shown, List.filter_append, htold]
    rfl

/-! ## Folders -/

theorem reportsOn_reports (fs : Files) (o : Options) (rules : Rules) (files : List Path) :
    (reportsOn fs o rules files).1 = files.filterMap fun file => (fileEnd fs o rules file).toOption := by
  induction files with
  | nil => rfl
  | cons file rest ih =>
    rw [reportsOn, List.filterMap_cons, fileEnd, ← ih]
    obtain ⟨found, told⟩ := reportOn fs o rules file
    cases found <;> rfl

theorem reportsOn_shown (fs : Files) (o : Options) (rules : Rules) (files : List Path) :
    (reportsOn fs o rules files).2.filter (!·.isDetail) = files.filterMap fun file =>
      match fileEnd fs o rules file with
      | .ok _ => none
      | .error message => some (.skipped file message) := by
  induction files with
  | nil => rfl
  | cons file rest ih =>
    have htold := filter_reportOn fs o rules file
    rw [reportsOn, List.filterMap_cons, fileEnd, ← ih]
    generalize reportOn fs o rules file = report at htold ⊢
    obtain ⟨found, told⟩ := report
    cases found with
    | ok value =>
      show (told ++ _).filter _ = _
      rw [List.filter_append, htold, List.nil_append]
      rfl
    | error e =>
      show (told ++ _).filter _ = _
      rw [List.filter_append, htold, List.nil_append]
      rfl

/-- The run of a folder puts together the ends of the files that were selected. -/
theorem runFolder_putsTogether (rules : Rules) {folder : Path} {control : VersionControl}
    {selection : Selection} (h : Selection.of library fs folder o.respectIgnore control = .ok selection) :
    ∃ r, runFolder library fs o rules folder control = .ok r ∧
      r.PutsTogether (selection.kept.map fun file => (file, fileEnd fs o rules file)) := by
  have hreports := reportsOn_reports fs o rules selection.kept
  have hshown := reportsOn_shown fs o rules selection.kept
  rw [runFolder, h]
  refine ⟨_, rfl, ?_⟩
  constructor
  case output =>
    rw [List.filterMap_map]
    exact congrArg Output.reports hreports
  case shown =>
    rw [List.filterMap_map]
    show (selection.log.map (Notice.detail .ignore) ++ _).filter _ = _
    rw [List.filter_append, hshown]
    simp [Notice.isDetail]
  case status =>
    dsimp only
    split <;> simp
  case status_eq_zero_iff =>
    refine ite_eq_left_iff.trans ?_
    have hsome : ∀ e : Except String Json, e.toOption.isSome = true ↔ ∃ value, e = .ok value := by
      intro e
      cases e <;> simp [Except.toOption]
    rw [hreports, List.filterMap_length_eq_length]
    simp [hsome]

/-- A run of a folder considers a file: a source file below the folder, if the patterns of the
folder do not ignore it or are not asked. -/
structure Considers (library : PatternLibrary) (fs : Files) (o : Options) (file : Path) : Prop where
  isFile : fs.isFile file = true
  isBelow : file.IsBelow o.path
  isSource : file.names.getLast?.any isSourceName = true
  isKept : o.respectIgnore = true →
    ∃ ignore, Ignore.load library fs o.path = .ok ignore ∧ ignore.ignores o.path file = false

/-- Which files are selected, without version control. -/
theorem exists_selection (fs : Files) (o : Options)
    (hload : o.respectIgnore = true → ∃ ignore, Ignore.load library fs o.path = .ok ignore) :
    ∃ selection, Selection.of library fs o.path o.respectIgnore = .ok selection ∧
      (∀ file, file ∈ selection.kept ↔ Considers library fs o file) ∧
      selection.kept.Pairwise fun a b => a.names < b.names := by
  have hall (file : Path) : file ∈ fs.sources o.path ↔
      fs.isFile file = true ∧ file.IsBelow o.path ∧ file.names.getLast?.any isSourceName = true :=
    Files.mem_filesBelow
  have horder := Files.pairwise_filesBelow fs o.path isSourceName
  rw [Selection.of]
  cases hrespect : o.respectIgnore with
  | false =>
    refine ⟨_, rfl, fun file => (hall file).trans ⟨fun h => ?_, fun h => ⟨h.isFile, h.isBelow, h.isSource⟩⟩,
      horder⟩
    exact ⟨h.1, h.2.1, h.2.2, fun hno => by rw [hrespect] at hno; cases hno⟩
  | true =>
    obtain ⟨ignore, hignore⟩ := hload hrespect
    rw [hignore]
    refine ⟨_, rfl, fun file => ?_, horder.filter _⟩
    rw [List.mem_filter, hall]
    constructor
    · rintro ⟨⟨hfile, hbelow, hsource⟩, hkept⟩
      refine ⟨hfile, hbelow, hsource, fun _ => ⟨ignore, hignore, ?_⟩⟩
      simpa [Ignore.leavesOut, VersionControl.absent] using hkept
    · rintro ⟨hfile, hbelow, hsource, hkept⟩
      obtain ⟨ignore', hignore', hno⟩ := hkept hrespect
      obtain rfl : ignore' = ignore := by rw [hignore] at hignore'; cases hignore'; rfl
      exact ⟨⟨hfile, hbelow, hsource⟩, by simp [Ignore.leavesOut, VersionControl.absent, hno]⟩

/-! ## Commands -/

/-- A run with notices in front of its own. -/
def Run.after (r : Run) (told : List Notice) : Run := { r with notices := told ++ r.notices }

section
variable {r : Run} {told : List Notice} (htold : told.filter (!·.isDetail) = [])
include htold

theorem Run.shown_after : (r.after told).shown = r.shown := by
  show (told ++ r.notices).filter _ = _
  rw [List.filter_append, htold, List.nil_append]
  rfl

theorem Run.Ends.after {e : Except String Json} (h : r.Ends e) : (r.after told).Ends e := by
  cases e <;> exact ⟨h.1, h.2.1, (shown_after htold).trans h.2.2⟩

theorem Run.PutsTogether.after {ends : List (Path × Except String Json)} (h : r.PutsTogether ends) :
    (r.after told).PutsTogether ends :=
  { h with shown := (shown_after htold).trans h.shown }

end

section
variable {told : List Notice} (hrules : chooseRules fs o = .ok (rules, told))
include hrules

/-- Of the rules only details are told. -/
theorem shown_of_chooseRules : told.filter (!·.isDetail) = [] := by
  rw [chooseRules] at hrules
  split at hrules
  case h_1 =>
    cases hrules
    rfl
  case h_2 =>
    obtain ⟨read, -, hread⟩ := except_bind_eq_ok_iff.1 hrules
    cases hread
    rfl

theorem runOptions_of_file (control : VersionControl) (h : fs.isFolder o.path = false) :
    runOptions fs o library control = .ok ((runFile fs o rules o.path).after told) := by
  rw [runOptions, hrules]
  dsimp only
  rw [if_neg (by simp [h])]
  rfl

theorem runOptions_of_folder (control : VersionControl) (h : fs.isFolder o.path = true) :
    runOptions fs o library control =
      match runFolder library fs o rules o.path control with
      | .ok r => .ok (r.after told)
      | .error e => .error (.ignore e) := by
  rw [runOptions, hrules]
  dsimp only
  rw [if_pos h]
  cases runFolder library fs o rules o.path control <;> rfl

/-- **The run of a folder is the runs of its files put together.** It considers each source file
below the folder that the patterns do not ignore once, in the order of the names, and what it
writes and tells of a file is what the run of that file alone does with the same options. -/
theorem runOptions_folder (hdefault : Ignore.KnowsDefault library) (hfolder : fs.isFolder o.path = true)
    (hload : o.respectIgnore = true → fs.isFile (o.path.below [Ignore.fileName]) = true →
      ∃ ignore, Ignore.load library fs o.path = .ok ignore) :
    ∃ r ends, runOptions fs o library = .ok r ∧ r.PutsTogether ends ∧
      (∀ file, file ∈ ends.map Prod.fst ↔ Considers library fs o file) ∧
      (ends.map Prod.fst).Pairwise (fun a b => a.names < b.names) ∧
      ∀ p ∈ ends, ∃ own, runOptions fs { o with path := p.1 } library = .ok own ∧ own.Ends p.2 := by
  have htold := shown_of_chooseRules hrules
  obtain ⟨selection, hselection, hconsiders, horder⟩ := exists_selection fs o fun hrespect => by
    cases hfile : fs.isFile (o.path.below [Ignore.fileName]) with
    | true => exact hload hrespect hfile
    | false => exact Ignore.exists_load_of_absent hdefault hfile
  obtain ⟨r, hr, htogether⟩ := runFolder_putsTogether rules hselection
  refine ⟨_, _, ?_, htogether.after htold, ?_, ?_, ?_⟩
  · rw [runOptions_of_folder hrules _ hfolder, hr]
  · simpa [List.map_map, Function.comp_def] using hconsiders
  · simpa [List.map_map, Function.comp_def] using horder
  · intro p hp
    obtain ⟨file, hfile, rfl⟩ := List.mem_map.1 hp
    have hown : chooseRules fs { o with path := file } = .ok (rules, told) := hrules
    refine ⟨_, runOptions_of_file hown _ ?_, (runFile_ends fs _ rules file).after htold⟩
    exact Files.not_isFolder_of_isFile ((hconsiders file).1 hfile).isFile

end

/-- A folder with a source file, one that is no text, and one in a folder that is left out. -/
def threeFiles : Files :=
  ((Files.empty.write { names := ["p", "a.py"] } [0x78]).write { names := ["p", "b.py"] } [0xff]).write
    { names := ["p", "venv", "c.py"] } [0x78]

/-- The run of that folder with the built-in rules and patterns. -/
theorem threeFiles_runOptions :
    Ignore.KnowsDefault Pattern.library ∧ threeFiles.isFolder { names := ["p"] } = true ∧
      threeFiles.isFile { names := ["p", ".defuseignore"] } = false ∧
      ∃ r ends, runOptions threeFiles { path := { names := ["p"] } } = .ok r ∧ r.PutsTogether ends ∧
        (∀ file, file ∈ ends.map Prod.fst ↔
          Considers Pattern.library threeFiles { path := { names := ["p"] } } file) ∧
        (ends.map Prod.fst).Pairwise (fun a b => a.names < b.names) ∧
        ∀ p ∈ ends, ∃ own, runOptions threeFiles { path := p.1 } = .ok own ∧ own.Ends p.2 := by
  have hrules : chooseRules threeFiles { path := { names := ["p"] } } = .ok (Rules.default, []) := rfl
  have habsent : threeFiles.isFile { names := ["p", ".defuseignore"] } = false := by decide
  have hdefault := Pattern.knowsDefault_library
  exact ⟨hdefault, by decide, habsent,
    runOptions_folder hrules hdefault (by decide) fun _ h => absurd h (by decide)⟩

end CommandLine
end Reaching
