/-
What a command does to a tree of files: one report for a file, a list of them
for a folder, and notices in the order in which things happen.

A file that cannot be analysed ends the command, but in a folder it is skipped.
The run of a folder is made of the runs of its files. Faults that no notice
tells of leave the command as failures.
-/
import Reaching.CommandLine.Options
import Reaching.Ignore.Pattern
import Reaching.Json.Writer
import Reaching.Report
import Reaching.Rules.File

namespace Reaching.CommandLine

/-! ## Notices -/

/-- The part of the program that tells something. -/
inductive Topic where
  | rules
  | dataflow
  | ignore
  deriving DecidableEq, Repr

def Topic.text : Topic → String
  | .rules => "defuse.slicer_config"
  | .dataflow => "defuse.dfg_extractor"
  | .ignore => "defuse.defuseignore"

/-- What the program tells of itself: details, a file that it skips, and why it
ends. -/
inductive Notice where
  | detail (topic : Topic) (text : String)
  | skipped (file : Path) (message : String)
  | failed (message : Text)
  deriving DecidableEq, Repr

namespace Notice

def line : Notice → Text
  | .detail topic text => "DEBUG " ++ topic.text ++ ": " ++ text ++ "\n"
  | .skipped file message => "WARNING defuse.cli: Skipping " ++ file.text ++ ": " ++ message ++ "\n"
  | .failed message => Text.ofString "Error: " ++ message ++ Text.ofString "\n"

/-- Whether a notice is only for those who ask for details. -/
def isDetail : Notice → Bool
  | .detail _ _ => true
  | _ => false

end Notice

/-! ## Results -/

/-- What a command writes. -/
inductive Output where
  | nothing
  | report (value : Json)
  | reports (list : List Json)

def Output.text : Output → String
  | .nothing => ""
  | .report value => value.indented ++ "\n"
  | .reports list => (Json.arr list).indented ++ "\n"

/-- How a command ends. -/
structure Run where
  status : Nat
  output : Output := .nothing
  notices : List Notice := []

/-- The lines of the notices that are shown. -/
def Run.lines (r : Run) (isVerbose : Bool) : List Text :=
  (r.notices.filter fun n => isVerbose || !n.isDetail).map Notice.line

/-- A fault that leaves the command: rules that are not announced to be faulty,
and the patterns of a project. -/
inductive Failure where
  | rules (error : RulesFileError)
  | ignore (error : IgnoreError)

def Failure.message : Failure → Text
  | .rules e => e.message
  | .ignore e => e.message

/-! ## One file -/

/-- Why a file has no report. -/
inductive ReportError where
  | text (error : TextError)
  | analysis (error : AnalysisError)
  | longInteger
  deriving DecidableEq, Repr

def ReportError.message : ReportError → String
  | .text e => e.message
  | .analysis e => e.message
  | .longInteger => Text.tooLong

/-- The members of a report that tell the slice, if one is asked for. -/
def sliceMembers (o : Options) (a : Analysis) : List (Text × Json) :=
  if o.seeds.isEmpty then []
  else
    let lines := Slice.lines o.direction a.session.edges o.seeds
    [("slice", .obj [("direction", .str o.direction.text), ("seeds", .arr (o.seeds.map .int)),
      ("lines", .arr (lines.map .int))])]

/-- The report on a file. -/
def report? (o : Options) (file : Path) (a : Analysis) : Option Json := do
  let members ← a.members?
  some (.obj (members ++ sliceMembers o a ++ [Json.entry "file" (.str file.text)]))

/-- The details of an analysis: the literals that were discarded on each visit,
then its size. -/
def details (a : Analysis) : List Notice :=
  let discarded := a.session.discarded.map fun line =>
    "Ignoring malformed def annotation at line " ++ toString line ++ ": <reason>"
  let size := "Dataflow analysis of " ++ a.graph.name ++ ": " ++ toString a.outcome.visits
    ++ " block visits, " ++ toString a.session.edges.length ++ " edges"
  (discarded ++ [size]).map (.detail .dataflow)

/-- The analysis of a file. -/
def analyzeFile (fs : Files) (o : Options) (rules : Rules) (file : Path) :
    Except ReportError Analysis := do
  let source ← (fs.readText file).mapError .text
  (Analysis.of source o.function rules).mapError .analysis

/-- The report on a file, and what is told on the way to it. -/
def reportOn (fs : Files) (o : Options) (rules : Rules) (file : Path) :
    Except ReportError Json × List Notice :=
  match analyzeFile fs o rules file with
  | .error e => (.error e, [])
  | .ok a =>
    match report? o file a with
    | some value => (.ok value, details a)
    | none => (.error .longInteger, details a)

/-- The run of a single file. -/
def runFile (fs : Files) (o : Options) (rules : Rules) (file : Path) : Run :=
  match reportOn fs o rules file with
  | (.ok value, told) => { status := 0, output := .report value, notices := told }
  | (.error e, told) => { status := 1, notices := told ++ [.failed e.message] }

/-! ## A folder -/

/-- The reports on files one after the other, with the notices on the way. -/
def reportsOn (fs : Files) (o : Options) (rules : Rules) : List Path → List Json × List Notice
  | [] => ([], [])
  | file :: rest =>
    let (reports, notices) := reportsOn fs o rules rest
    match reportOn fs o rules file with
    | (.ok value, told) => (value :: reports, told ++ notices)
    | (.error e, told) => (reports, told ++ .skipped file e.message :: notices)

/-- The run of a folder. Its status tells whether a file was skipped. -/
def runFolder (library : PatternLibrary) (fs : Files) (o : Options) (rules : Rules) (folder : Path)
    (control : VersionControl) : Except IgnoreError Run := do
  let selection ← Selection.of library fs folder o.respectIgnore control
  let (reports, notices) := reportsOn fs o rules selection.kept
  .ok {
    status := if reports.length = selection.kept.length then 0 else 1
    output := .reports reports
    notices := selection.log.map (.detail .ignore) ++ notices }

/-! ## A command -/

/-- The rules that options choose. -/
def chooseRules (fs : Files) (o : Options) : Except RulesFileError (Rules × List Notice) :=
  let base := if o.defaultRules then Rules.default else Rules.empty
  match o.config with
  | none => .ok (base, [])
  | some path => do
    let rules ← Rules.ofFile fs path
    .ok (base.merge rules, [.detail .rules (rules.log path)])

/-- The run that options ask for. -/
def runOptions (fs : Files) (o : Options) (library : PatternLibrary := Pattern.library)
    (control : VersionControl := .absent) : Except Failure Run :=
  match chooseRules fs o with
  | .error e =>
    if e.isAnnounced then .ok { status := 1, notices := [.failed e.message] } else .error (.rules e)
  | .ok (rules, notices) => do
    let run ← if fs.isFolder o.path then (runFolder library fs o rules o.path control).mapError .ignore
      else .ok (runFile fs o rules o.path)
    .ok { run with notices := notices ++ run.notices }

/-- What a command prints: its status, its output, and its notices. Arguments
that make no sense are answered by the usage. -/
structure Printed where
  status : Nat
  output : String
  errors : Text
  deriving DecidableEq, Repr

/-- The command with some arguments, in a tree of files. -/
def run (fs : Files) (arguments : List String) (library : PatternLibrary := Pattern.library)
    (control : VersionControl := .absent) : Except Failure Printed :=
  match Request.ofArguments arguments with
  | .help => .ok ⟨0, helpText, ""⟩
  | .misuse => .ok ⟨2, "", usageText⟩
  | .analyze o => do
    let r ← runOptions fs o library control
    .ok ⟨r.status, r.output.text, (r.lines o.isVerbose).flatten⟩

end Reaching.CommandLine
