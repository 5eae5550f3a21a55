/-
When the run of a folder ends in a report.

What is wrong with a source file is told, and the run goes on: the analysis of a file meets only
errors of these kinds, for the links of a graph lead to its blocks (`isCaught_of_analyzeFile`).
The file of patterns is read before, and no fault of it is told: one that is no text and one
with lines that the library of patterns refuses leave the command without a report
(`run_folder_reports_iff`).
-/
import Reaching.Proofs.Calls
import Reaching.Proofs.FolderRuns
import Reaching.Proofs.Region

namespace Reaching

/-! ## Single files -/

/-- Whether an error is of a kind that the run of a file or a folder tells of: what reading,
decoding and parsing meet, a function that is not there, and an integer of too many digits. A link to
no block is of another kind. -/
def CommandLine.ReportError.isCaught : CommandLine.ReportError → Bool
  | .text _ => true
  | .analysis (.source _) => true
  | .analysis (.function _) => true
  | .analysis (.block _) => false
  | .longInteger => true

/-- The graph of a source text is linked, so that its analysis meets no link without a block. -/
theorem Analysis.of_ne_block (source : String) (function : Option String) (rules : Rules) (e : UnknownBlock) :
    Analysis.of source function rules ≠ .error (.block e) := by
  intro h
  simp only [Analysis.of, graphOf, except_bind_eq_error_iff, except_bind_eq_ok_iff, mapError_eq_error_iff,
    mapError_eq_ok_iff] at h
  rcases h with (⟨_, -, he⟩ | ⟨m, -, _, -, he⟩) | ⟨g, ⟨m, -, hgraph⟩, h⟩
  · cases he
  · cases he
  · obtain ⟨s, outcome, hok, -⟩ := exists_analyze ((Graph.of_linked hgraph).sites rules).resolved none
      Session.fresh_covers
    rcases h with ⟨_, hfails, -⟩ | ⟨_, -, hdone⟩
    · rw [hok] at hfails
      cases hfails
    · cases hdone

namespace CommandLine

variable {library : PatternLibrary} {fs : Files} {o : Options} {rules : Rules}

theorem isCaught_of_analyzeFile {file : Path} {e : ReportError} (h : analyzeFile fs o rules file = .error e) :
    e.isCaught = true := by
  simp only [analyzeFile, except_bind_eq_error_iff, mapError_eq_error_iff] at h
  rcases h with ⟨fault, -, rfl⟩ | ⟨source, -, fault, hof, rfl⟩
  · rfl
  · cases fault with
    | source => rfl
    | function => rfl
    | block e => exact absurd hof (Analysis.of_ne_block source o.function rules e)

/-- **What is wrong with a file is of a kind that is told.** -/
theorem isCaught_of_reportOn {file : Path} {e : ReportError} (h : (reportOn fs o rules file).1 = .error e) :
    e.isCaught = true := by
  rw [reportOn] at h
  split at h
  · rename_i hanalysis
    obtain rfl := Except.error.inj h
    exact isCaught_of_analyzeFile hanalysis
  · split at h
    · cases h
    · obtain rfl := Except.error.inj h
      rfl

/-! ## Folders -/

/-- The patterns of the folder are asked for and cannot be read. -/
def Lacks (library : PatternLibrary) (fs : Files) (o : Options) : Prop :=
  o.respectIgnore = true ∧ Ignore.Spoils library fs o.path

theorem exists_selection_error_iff (hdefault : Ignore.KnowsDefault library) (control : VersionControl) :
    (∃ e, Selection.of library fs o.path o.respectIgnore control = .error e) ↔ Lacks library fs o := by
  rw [Lacks, ← Ignore.exists_load_error_iff hdefault]
  cases o.respectIgnore <;> simp [Selection.of, except_bind_eq_error_iff]

theorem run_of_arguments (library : PatternLibrary) (fs : Files) {arguments : List String}
    (hasks : Request.ofArguments arguments = .analyze o) (control : VersionControl) :
    run fs arguments library control = (runOptions fs o library control >>= fun r =>
      .ok ⟨r.status, r.output.text, (r.lines o.isVerbose).flatten⟩) := by
  rw [run, hasks]

section
variable {told : List Notice} (hdefault : Ignore.KnowsDefault library)
  (hrules : chooseRules fs o = .ok (rules, told)) (hfolder : fs.isFolder o.path = true)
include hdefault hrules hfolder

/-- The run of a folder with patterns writes a list of reports. -/
theorem exists_reports_of_not_lacks (control : VersionControl) (h : ¬ Lacks library fs o) :
    ∃ r reports, runOptions fs o library control = .ok r ∧ r.output = .reports reports ∧
      (r.status = 0 ∨ r.status = 1) := by
  cases hselection : Selection.of library fs o.path o.respectIgnore control with
  | error e => exact absurd ((exists_selection_error_iff hdefault control).1 ⟨e, hselection⟩) h
  | ok selection =>
    obtain ⟨r, hr, htogether⟩ := runFolder_putsTogether rules hselection
    refine ⟨r.after told, _, ?_, htogether.output, htogether.status⟩
    rw [runOptions_of_folder hrules control hfolder, hr]

/-- Without patterns the fault leaves the run. -/
theorem exists_failure_of_lacks (control : VersionControl) (h : Lacks library fs o) :
    ∃ e, runOptions fs o library control = .error (.ignore e) := by
  obtain ⟨e, he⟩ := (exists_selection_error_iff hdefault control).2 h
  refine ⟨e, ?_⟩
  rw [runOptions_of_folder hrules control hfolder, runFolder, he]
  rfl

/-- **The run of a folder ends in a list of reports exactly if the patterns of the folder can be
read, or are not asked for**, whatever bytes its files hold and whatever version control
says. Otherwise the fault leaves the command. -/
theorem run_folder_reports_iff {arguments : List String}
    (hasks : Request.ofArguments arguments = .analyze o) (control : VersionControl) :
    ((∃ printed reports, run fs arguments library control = .ok printed ∧
        printed.output = (Output.reports reports).text ∧ (printed.status = 0 ∨ printed.status = 1)) ↔
      ¬ Lacks library fs o) ∧
    (Lacks library fs o → ∃ e, run fs arguments library control = .error (.ignore e)) ∧
    ∀ file e, (reportOn fs o rules file).1 = .error e → e.isCaught = true := by
  have hrun := run_of_arguments library fs hasks control
  have hfails : Lacks library fs o → ∃ e, run fs arguments library control = .error (.ignore e) := by
    intro h
    obtain ⟨e, he⟩ := exists_failure_of_lacks hdefault hrules hfolder control h
    exact ⟨e, by rw [hrun, he]; rfl⟩
  refine ⟨⟨?_, fun h => ?_⟩, hfails, fun file e => isCaught_of_reportOn⟩
  · rintro ⟨printed, -, hprinted, -⟩ h
    obtain ⟨e, he⟩ := hfails h
    rw [hprinted] at he
    cases he
  · obtain ⟨r, reports, hr, houtput, hstatus⟩ := exists_reports_of_not_lacks hdefault hrules hfolder control h
    refine ⟨_, reports, by rw [hrun, hr]; rfl, ?_, hstatus⟩
    exact congrArg Output.text houtput

end

/-- A folder with a file that is no text ends in a list of reports, and tells of that file. -/
theorem threeFiles_reports :
    Ignore.KnowsDefault Pattern.library ∧ threeFiles.isFolder { names := ["p"] } = true ∧
      ¬ Lacks Pattern.library threeFiles { path := { names := ["p"] } } ∧
      ∃ printed reports, run threeFiles ["p"] = .ok printed ∧
        printed.output = (Output.reports reports).text ∧ (printed.status = 0 ∨ printed.status = 1) := by
  have hrules : chooseRules threeFiles { path := { names := ["p"] } } = .ok (Rules.default, []) := rfl
  have hasks : Request.ofArguments ["p"] = .analyze { path := { names := ["p"] } } := by decide +kernel
  have hfolder : threeFiles.isFolder { names := ["p"] } = true := by decide
  have hlacks : ¬ Lacks Pattern.library threeFiles { path := { names := ["p"] } } :=
    fun h => absurd h.2.isFile (by decide)
  have hdefault := Pattern.knowsDefault_library
  exact ⟨hdefault, hfolder, hlacks, (run_folder_reports_iff hdefault hrules hfolder hasks .absent).1.2 hlacks⟩

/-- A folder whose file of patterns is no text. -/
def spoiledFolder : Files := Files.empty.write { names := [".defuseignore"] } [0xff]

/-- It has no run: the fault leaves the command, and no report is written. -/
theorem spoiledFolder_fails : spoiledFolder.isFolder {} = true ∧
    Request.ofArguments ["."] = .analyze { path := {} } ∧
      ∃ e, run spoiledFolder ["."] = .error (.ignore e) := by
  have hrules : chooseRules spoiledFolder { path := {} } = .ok (Rules.default, []) := rfl
  have hasks : Request.ofArguments ["."] = .analyze { path := {} } := by decide +kernel
  have hfolder : spoiledFolder.isFolder {} = true := by decide
  have hspoils : Ignore.Spoils Pattern.library spoiledFolder {} := by
    refine .notText [0xff] rfl (Text.exists_ofUtf8_eq_error_iff.1 ⟨⟨.badStart, 0, 0xff, 0⟩, ?_⟩)
    rw [Text.ofUtf8, Text.utf8CharsFrom]
    rfl
  obtain ⟨e, he⟩ := exists_failure_of_lacks Pattern.knowsDefault_library hrules hfolder .absent ⟨rfl, hspoils⟩
  exact ⟨hfolder, hasks, e, by rw [run_of_arguments _ _ hasks, he]; rfl⟩

end CommandLine
end Reaching
