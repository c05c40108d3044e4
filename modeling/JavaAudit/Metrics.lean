import JavaAudit.Issue

/-! What is kept of each file, and the figures of a project that follow from it. Counters have 64
bits. -/
namespace JavaAudit

structure FileSummary where
  path : String
  parsed : Bool
  failureReason : Option String
  package : Option String
  classCount : UInt64
  methodCount : UInt64
  totalComplexity : UInt64
  issues : List FileIssue
  deriving DecidableEq, Repr, Inhabited

structure ProjectMetrics where
  totalFiles : UInt64 := 0
  successfullyParsed : UInt64 := 0
  parseFailures : UInt64 := 0
  totalClasses : UInt64 := 0
  totalMethods : UInt64 := 0
  totalComplexity : UInt64 := 0
  totalPackages : UInt64 := 0
  issueCounts : SeverityCounts := {}
  avgComplexityPerMethod : Float := 0
  avgMethodsPerClass : Float := 0
  score : Nat := 0
  deriving Repr, Inhabited

namespace Severity

def penalty : Severity → Int64
  | info => 1
  | warning => 3
  | error => 10
  | critical => 20

end Severity

/-- The weight of all issues, in signed arithmetic of 64 bits. -/
def SeverityCounts.penalty (c : SeverityCounts) : Int64 :=
  Severity.penalty .critical * c.critical.toInt64 + Severity.penalty .error * c.error.toInt64 +
    Severity.penalty .warning * c.warning.toInt64 + Severity.penalty .info * c.info.toInt64

def qualityScore (c : SeverityCounts) : Nat :=
  min (100 - c.penalty).toInt.toNat 100

inductive ScoreBand where
  | good | needsImprovement | seriousProblems
  deriving DecidableEq, Repr, Inhabited

namespace ScoreBand

def ofScore (score : Nat) : ScoreBand :=
  if 80 ≤ score then good else if 60 ≤ score then needsImprovement else seriousProblems

def label : ScoreBand → String
  | good => "Good"
  | needsImprovement => "Needs improvement"
  | seriousProblems => "Serious problems"

end ScoreBand

def ProjectMetrics.band (m : ProjectMetrics) : ScoreBand := .ofScore m.score

def ratio (part whole : UInt64) : Float :=
  if whole = 0 then 0 else part.toFloat / whole.toFloat

def ProjectMetrics.addFile (m : ProjectMetrics) (f : FileSummary) : ProjectMetrics :=
  { m with
    totalFiles := m.totalFiles + 1
    successfullyParsed := m.successfullyParsed + if f.parsed then 1 else 0
    parseFailures := m.parseFailures + if f.parsed then 0 else 1
    totalClasses := m.totalClasses + f.classCount
    totalMethods := m.totalMethods + f.methodCount
    totalComplexity := m.totalComplexity + f.totalComplexity
    issueCounts := (f.issues.map FileIssue.severity).foldl SeverityCounts.bump m.issueCounts }

def ProjectMetrics.conclude (m : ProjectMetrics) : ProjectMetrics :=
  { m with
    avgComplexityPerMethod := ratio m.totalComplexity m.totalMethods
    avgMethodsPerClass := ratio m.totalMethods m.totalClasses
    score := qualityScore m.issueCounts }

def aggregate (files : List FileSummary) (issues : List ProjectIssue) (packages : UInt64) :
    ProjectMetrics :=
  let counted := files.foldl ProjectMetrics.addFile { totalPackages := packages }
  ProjectMetrics.conclude { counted with
    issueCounts := (issues.map ProjectIssue.severity).foldl SeverityCounts.bump counted.issueCounts }

end JavaAudit
