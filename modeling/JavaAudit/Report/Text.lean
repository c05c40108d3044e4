import JavaAudit.Decimal.Layout
import JavaAudit.Report.Basic
import JavaAudit.Report.Styled

/-! The report for a reader. -/
namespace JavaAudit

open StyledText (plain styled)

def Severity.style : Severity → Style
  | info => .plain .cyan
  | warning => .plain .yellow
  | error => .plain .red
  | critical => .bold .red

def ScoreBand.style : ScoreBand → Style
  | good => .bold .green
  | needsImprovement => .bold .yellow
  | seriousProblems => .bold .red

namespace Report

def heading (text : String) : StyledText := styled (.bold .blue) text ++ plain "\n"

def line (text : String) : StyledText := plain (text ++ "\n")

def entry (name value : String) : StyledText := line (name ++ ": " ++ value)

def issueLine (i : Issue) : StyledText :=
  let place := match i.line? with
    | some n => i.location ++ ":" ++ toString n
    | none => i.location
  plain "  [" ++ styled i.severity.style i.severity.name ++
    plain ("] " ++ i.code.name ++ " " ++ place ++ " " ++ i.message ++ "\n")

def issueLines (verbose : Bool) (i : Issue) : StyledText :=
  issueLine i ++ if verbose then line ("      -> " ++ i.suggestion) else []

def issueSection (least : Severity) (verbose : Bool) (issues : List Issue) : StyledText :=
  if issues.isEmpty then line ("No issues at or above " ++ least.name)
  else plain "\n" ++ heading ("Issues (>= " ++ least.name ++ ")") ++
    issues.flatMap (issueLines verbose)

def failureSection (failed : List FileSummary) : StyledText :=
  if failed.isEmpty then []
  else plain "\n" ++ heading "Parse Failures" ++
    failed.flatMap fun f => entry ("  " ++ f.path) (f.failureReason.getD "unknown")

def graphSection (s : GraphStatistics) : StyledText :=
  let most (title : String) (name : Option String) (count : Nat) : StyledText :=
    match name with
    | some name => entry title (name ++ " (" ++ toString count ++ ")")
    | none => []
  plain "\n" ++ heading "Dependency Graph" ++ entry "  Nodes" (toString s.totalNodes) ++
    entry "  Edges" (toString s.totalEdges) ++ entry "  Self-references" (toString s.selfLoops) ++
    most "  Most used" s.maxFanInType s.maxFanIn ++
    most "  Most dependencies" s.maxFanOutType s.maxFanOut

def duplicateSection (duplicates : List DuplicateType) : StyledText :=
  if duplicates.isEmpty then []
  else plain "\n" ++ heading "Duplicate Types" ++
    duplicates.flatMap fun d =>
      entry ("  " ++ d.fullName) (d.replacedFile ++ " replaced by " ++ d.winningFile)

def scoreText (m : ProjectMetrics) : String :=
  toString m.score ++ "/100 (" ++ m.band.label ++ ")"

def countsLine (c : SeverityCounts) : StyledText :=
  line ("\nIssues: " ++ toString c.critical ++ " critical, " ++ toString c.error ++ " error, " ++
    toString c.warning ++ " warning, " ++ toString c.info ++ " info")

def styledText (r : AnalysisResult) (least : Severity) (verbose : Bool) : StyledText :=
  let m := r.metrics
  heading "Code Quality Report" ++ styled .dimmed r.projectRoot ++ plain "\n\n" ++
    entry "Files analyzed" (toString m.totalFiles) ++
    entry "Successfully parsed" (toString m.successfullyParsed) ++
    entry "Parse failures" (toString m.parseFailures) ++
    entry "Packages" (toString m.totalPackages) ++
    entry "Classes" (toString m.totalClasses) ++
    entry "Methods" (toString m.totalMethods) ++
    entry "Total complexity" (toString m.totalComplexity) ++
    entry "Average complexity per method" (Decimal.twoPlaces m.avgComplexityPerMethod) ++
    entry "Average methods per class" (Decimal.twoPlaces m.avgMethodsPerClass) ++
    entry "Scan duration" r.scanDuration.write ++
    countsLine m.issueCounts ++ issueSection least verbose (r.issuesFrom least) ++
    (if verbose then
      failureSection r.failedFiles ++ graphSection r.graphStatistics ++
        duplicateSection r.duplicateTypes
    else []) ++
    plain "\nQuality score: " ++ styled m.band.style (scoreText m) ++ plain "\n"

def text (r : AnalysisResult) (least : Severity) (colors verbose : Bool) : String :=
  (styledText r least verbose).render colors

def quiet (r : AnalysisResult) : String :=
  let m := r.metrics
  "Score: " ++ scoreText m ++ ", files: " ++ toString m.totalFiles ++ ", parse failures: " ++
    toString m.parseFailures ++ ", issues: " ++ toString m.issueCounts.total ++ "\n"

end Report

end JavaAudit
