import JavaAudit.Json.Print
import JavaAudit.Json.Read
import JavaAudit.Report.Basic

/-! The outcome of a run as JSON, and back. The dependency graph is not part of it. -/
namespace JavaAudit

def FileIssue.toJson (i : FileIssue) : Json :=
  .object [("severity", i.severity.name), ("code", i.code.name), ("message", i.message),
    ("suggestion", i.suggestion), ("line", .nat i.line)]

def FileIssue.ofJson? (j : Json) : Option FileIssue := do
  some {
    severity := ← (← j.field? "severity").text? >>= Severity.ofName?
    code := ← (← j.field? "code").text? >>= IssueCode.ofName?
    message := ← (← j.field? "message").text?
    suggestion := ← (← j.field? "suggestion").text?
    line := ← (← j.field? "line").nat? }

def ProjectIssue.toJson (i : ProjectIssue) : Json :=
  .object [("severity", i.severity.name), ("code", i.code.name), ("message", i.message),
    ("suggestion", i.suggestion), ("location", i.location)]

def ProjectIssue.ofJson? (j : Json) : Option ProjectIssue := do
  some {
    severity := ← (← j.field? "severity").text? >>= Severity.ofName?
    code := ← (← j.field? "code").text? >>= IssueCode.ofName?
    message := ← (← j.field? "message").text?
    suggestion := ← (← j.field? "suggestion").text?
    location := ← (← j.field? "location").text? }

def FileSummary.toJson (f : FileSummary) : Json :=
  .object [("path", f.path), ("parsed", f.parsed),
    ("failure_reason", .ofOption .text f.failureReason), ("package", .ofOption .text f.package),
    ("class_count", .nat f.classCount.toNat), ("method_count", .nat f.methodCount.toNat),
    ("total_complexity", .nat f.totalComplexity.toNat), ("issues", .list (f.issues.map FileIssue.toJson))]

def FileSummary.ofJson? (j : Json) : Option FileSummary := do
  some {
    path := ← (← j.field? "path").text?
    parsed := ← (← j.field? "parsed").boolean?
    failureReason := ← (← j.field? "failure_reason").option? Json.text?
    package := ← (← j.field? "package").option? Json.text?
    classCount := ← (← j.field? "class_count").word?
    methodCount := ← (← j.field? "method_count").word?
    totalComplexity := ← (← j.field? "total_complexity").word?
    issues := ← (← (← j.field? "issues").list?).mapM FileIssue.ofJson? }

def SeverityCounts.toJson (c : SeverityCounts) : Json :=
  .object [("info", .nat c.info.toNat), ("warning", .nat c.warning.toNat),
    ("error", .nat c.error.toNat), ("critical", .nat c.critical.toNat)]

def SeverityCounts.ofJson? (j : Json) : Option SeverityCounts := do
  some {
    info := ← (← j.field? "info").word?
    warning := ← (← j.field? "warning").word?
    error := ← (← j.field? "error").word?
    critical := ← (← j.field? "critical").word? }

def ProjectMetrics.toJson (m : ProjectMetrics) : Json :=
  .object [("total_files", .nat m.totalFiles.toNat),
    ("successfully_parsed", .nat m.successfullyParsed.toNat),
    ("parse_failures", .nat m.parseFailures.toNat), ("total_classes", .nat m.totalClasses.toNat),
    ("total_methods", .nat m.totalMethods.toNat),
    ("total_complexity", .nat m.totalComplexity.toNat),
    ("total_packages", .nat m.totalPackages.toNat), ("issue_counts", m.issueCounts.toJson),
    ("avg_complexity_per_method", .float m.avgComplexityPerMethod),
    ("avg_methods_per_class", .float m.avgMethodsPerClass), ("score", .nat m.score)]

def ProjectMetrics.ofJson? (j : Json) : Option ProjectMetrics := do
  some {
    totalFiles := ← (← j.field? "total_files").word?
    successfullyParsed := ← (← j.field? "successfully_parsed").word?
    parseFailures := ← (← j.field? "parse_failures").word?
    totalClasses := ← (← j.field? "total_classes").word?
    totalMethods := ← (← j.field? "total_methods").word?
    totalComplexity := ← (← j.field? "total_complexity").word?
    totalPackages := ← (← j.field? "total_packages").word?
    issueCounts := ← SeverityCounts.ofJson? (← j.field? "issue_counts")
    avgComplexityPerMethod := ← (← j.field? "avg_complexity_per_method").float?
    avgMethodsPerClass := ← (← j.field? "avg_methods_per_class").float?
    score := ← (← j.field? "score").nat? }

def GraphStatistics.toJson (s : GraphStatistics) : Json :=
  .object [("total_nodes", .nat s.totalNodes), ("total_edges", .nat s.totalEdges),
    ("self_loops", .nat s.selfLoops), ("max_fan_in", .nat s.maxFanIn),
    ("max_fan_in_type", .ofOption .text s.maxFanInType), ("max_fan_out", .nat s.maxFanOut),
    ("max_fan_out_type", .ofOption .text s.maxFanOutType)]

def GraphStatistics.ofJson? (j : Json) : Option GraphStatistics := do
  some {
    totalNodes := ← (← j.field? "total_nodes").nat?
    totalEdges := ← (← j.field? "total_edges").nat?
    selfLoops := ← (← j.field? "self_loops").nat?
    maxFanIn := ← (← j.field? "max_fan_in").nat?
    maxFanInType := ← (← j.field? "max_fan_in_type").option? Json.text?
    maxFanOut := ← (← j.field? "max_fan_out").nat?
    maxFanOutType := ← (← j.field? "max_fan_out_type").option? Json.text? }

def DuplicateType.toJson (d : DuplicateType) : Json :=
  .object [("fqn", d.fullName), ("replaced_file", d.replacedFile), ("winning_file", d.winningFile)]

def DuplicateType.ofJson? (j : Json) : Option DuplicateType := do
  some {
    fullName := ← (← j.field? "fqn").text?
    replacedFile := ← (← j.field? "replaced_file").text?
    winningFile := ← (← j.field? "winning_file").text? }

def Duration.toJson (d : Duration) : Json :=
  .object [("secs", .nat d.seconds), ("nanos", .nat d.nanos)]

def Duration.ofJson? (j : Json) : Option Duration := do
  some (.ofParts (← (← j.field? "secs").nat?) (← (← j.field? "nanos").nat?))

def AnalysisResult.toJson (r : AnalysisResult) : Json :=
  .object [("project_root", r.projectRoot), ("files", .list (r.files.map FileSummary.toJson)),
    ("project_issues", .list (r.projectIssues.map ProjectIssue.toJson)),
    ("metrics", r.metrics.toJson), ("graph_statistics", r.graphStatistics.toJson),
    ("duplicate_types", .list (r.duplicateTypes.map DuplicateType.toJson)),
    ("analysis_date", r.analysisDate.write), ("scan_duration", r.scanDuration.toJson)]

def AnalysisResult.ofJson? (j : Json) : Option AnalysisResult := do
  some {
    projectRoot := ← (← j.field? "project_root").text?
    files := ← (← (← j.field? "files").list?).mapM FileSummary.ofJson?
    projectIssues := ← (← (← j.field? "project_issues").list?).mapM ProjectIssue.ofJson?
    metrics := ← ProjectMetrics.ofJson? (← j.field? "metrics")
    graphStatistics := ← GraphStatistics.ofJson? (← j.field? "graph_statistics")
    duplicateTypes := ← (← (← j.field? "duplicate_types").list?).mapM DuplicateType.ofJson?
    analysisDate := ← (← j.field? "analysis_date").text? >>= Moment.read?
    scanDuration := ← Duration.ofJson? (← j.field? "scan_duration")
    dependencyGraph := .empty }

namespace Report

def json (r : AnalysisResult) : String := r.toJson.pretty

def readJson? (text : String) : Option AnalysisResult := do
  AnalysisResult.ofJson? (← Json.read? text)

end Report

end JavaAudit
