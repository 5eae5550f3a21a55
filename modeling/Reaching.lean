import Reaching.Main
import Reaching.CommandLine
import Reaching.CommandLine.Options
import Reaching.Report
import Reaching.Flow
import Reaching.Slice
import Reaching.Graph.Layout
import Reaching.Graph
import Reaching.Effect
import Reaching.Effect.Declaration
import Reaching.Effect.Mutation
import Reaching.Definition
import Reaching.Rules.File
import Reaching.Rules
import Reaching.Ignore
import Reaching.Ignore.Pattern
import Reaching.Files
import Reaching.Files.Path
import Reaching.Code.Read.Stmt
import Reaching.Code.Write.Stmt
import Reaching.Code.Node
import Reaching.Json.Reader
import Reaching.Json.Writer
import Reaching.Proofs.Failures
import Reaching.Proofs.Utf8
import Reaching.Proofs.Lookup
import Reaching.Proofs.LongIntegers
import Reaching.Proofs.RuleFiles
import Reaching.Proofs.IgnoreFiles
import Reaching.Proofs.FolderRuns
import Reaching.Proofs.FolderReports
import Reaching.Proofs.Arrival
import Reaching.Proofs.Visit
import Reaching.Proofs.Worklist
import Reaching.Proofs.Soundness
import Reaching.Proofs.Settled
import Reaching.Proofs.Termination
import Reaching.Proofs.Exactness
import Reaching.Proofs.DefUse
import Reaching.Proofs.Calls
import Reaching.Proofs.Recovery
import Reaching.Proofs.Revisits
import Reaching.Proofs.Origins
import Reaching.Proofs.Repetition
import Reaching.Proofs.Order
import Reaching.Proofs.SelfLinks
import Reaching.Proofs.Fragment
import Reaching.Proofs.Region
import Reaching.Proofs.Runs
import Reaching.Proofs.Placement
import Reaching.Proofs.Names
import Reaching.Proofs.Outflow
import Reaching.Proofs.DeadCode
import Reaching.Proofs.Reading
import Reaching.Proofs.Paths
import Reaching.Proofs.Shape
import Reaching.Proofs.Slices
import Reaching.Proofs.WellFormed
import Reaching.Proofs.Complexity
import Reaching.Proofs.Advance
import Reaching.Proofs.LoopHeaders
import Reaching.Proofs.Handlers
import Reaching.Proofs.Courses
import Reaching.Proofs.Finally
import Reaching.Proofs.RelevantRules
import Reaching.Proofs.RuleReading
import Reaching.Proofs.Declarations
import Reaching.Proofs.MovedAnalysis
import Reaching.Proofs.JsonText
import Reaching.Proofs.WrittenDeclarations
import Reaching.Proofs.Budgets
import Reaching.Proofs.NameShares
import Reaching.Proofs.StraightLine
import Reaching.Proofs.Keys
import Reaching.Proofs.ModuleNames
import Reaching.Proofs.SpansApart
import Reaching.Proofs.LineRanges
import Reaching.Proofs.Waiting
import Reaching.Proofs.Attribution
import Reaching.Proofs.Selection
import Reaching.Proofs.Identity
import Reaching.Proofs.Walks
