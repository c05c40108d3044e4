import JavaAudit.Graph.Dot
import JavaAudit.Graph.Statistics
import JavaAudit.Metrics
import JavaAudit.Report.Moment
import JavaAudit.SymbolTable

/-! The outcome of a run, and its issues as one list. -/
namespace JavaAudit

structure AnalysisResult where
  projectRoot : String
  files : List FileSummary
  projectIssues : List ProjectIssue
  metrics : ProjectMetrics
  graphStatistics : GraphStatistics
  duplicateTypes : List DuplicateType
  analysisDate : Moment
  scanDuration : Duration
  dependencyGraph : DependencyGraph
  deriving Inhabited

inductive Issue where
  | file (path : String) (issue : FileIssue)
  | project (issue : ProjectIssue)
  deriving DecidableEq, Repr, Inhabited

namespace Issue

def severity : Issue → Severity
  | file _ i => i.severity
  | project i => i.severity

def scope : Issue → String
  | file .. => "file"
  | project _ => "project"

def code : Issue → IssueCode
  | file _ i => i.code
  | project i => i.code

def message : Issue → String
  | file _ i => i.message
  | project i => i.message

def suggestion : Issue → String
  | file _ i => i.suggestion
  | project i => i.suggestion

def location : Issue → String
  | file path _ => path
  | project i => i.location

def line? : Issue → Option Nat
  | file _ i => some i.line
  | project _ => none

end Issue

namespace AnalysisResult

def timed (r : AnalysisResult) (time : Timing) : AnalysisResult :=
  { r with analysisDate := time.date, scanDuration := time.duration }

def issues (r : AnalysisResult) : List Issue :=
  r.files.flatMap (fun f => f.issues.map (.file f.path)) ++ r.projectIssues.map .project

def issuesFrom (r : AnalysisResult) (least : Severity) : List Issue :=
  r.issues.filter (least ≤ ·.severity)

def failedFiles (r : AnalysisResult) : List FileSummary := r.files.filter (!·.parsed)

def hasCriticalIssues (r : AnalysisResult) : Bool := 0 < r.metrics.issueCounts.critical

def exitCode (r : AnalysisResult) (failUnder : Option Nat) : Nat :=
  if r.hasCriticalIssues then 2
  else if failUnder.any (r.metrics.score < ·) then 3
  else 0

def toDot (r : AnalysisResult) : String :=
  r.dependencyGraph.toDot r.dependencyGraph.dependencies.contains

end AnalysisResult

end JavaAudit
