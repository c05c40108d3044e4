import JavaAudit.Facts.Extract
import JavaAudit.Graph.Build
import JavaAudit.Processing
import JavaAudit.Report.Basic
import JavaAudit.Source.Parse
import JavaAudit.Walk

/-! The analysis of a project: its source files are found, read and looked at one by one; then their
facts are brought together in the order of their paths. -/
namespace JavaAudit

structure ProcessedFile where
  names : List String
  facts : Except String FileFacts
  issues : List FileIssue
  deriving Inhabited

namespace ProcessedFile

def path (f : ProcessedFile) : String := Path.ofNames f.names

def facts? (f : ProcessedFile) : Option FileFacts := f.facts.toOption

def types (f : ProcessedFile) : List TypeInfo := (f.facts?.map FileFacts.types).getD []

def failed (names : List String) (reason : String) : ProcessedFile := ⟨names, .error reason, []⟩

def ofSource (parse : String → Source.Outcome) (limits : Limits) (names : List String)
    (source : String) : ProcessedFile :=
  match parse source with
  | .parsed tree =>
      let facts := factsOf tree (Path.ofNames names)
      ⟨names, .ok facts, checkFile limits facts⟩
  | .failed reason => failed names reason

def summary (f : ProcessedFile) : FileSummary :=
  match f.facts with
  | .ok facts =>
      { path := f.path, parsed := true, failureReason := none, package := some facts.package
        classCount := facts.types.length.toUInt64, methodCount := facts.methods.length.toUInt64
        totalComplexity := facts.totalComplexity.toUInt64, issues := f.issues }
  | .error reason =>
      { path := f.path, parsed := false, failureReason := some reason, package := none
        classCount := 0, methodCount := 0, totalComplexity := 0, issues := [] }

end ProcessedFile

structure Assembly where
  files : List FileSummary
  symbols : SymbolTable
  graph : DependencyGraph
  issues : List ProjectIssue
  metrics : ProjectMetrics
  deriving Inhabited

def sortFiles (files : List ProcessedFile) : List ProcessedFile :=
  files.mergeSort fun a b => Path.precedes a.names b.names

def assemble (c : DetectorConfig) (files : List ProcessedFile) : Assembly :=
  let files := sortFiles files
  let symbols := SymbolTable.empty.insertAll (files.flatMap ProcessedFile.types)
  let graph := buildGraph true symbols (files.map ProcessedFile.facts?)
  let issues := projectIssues c symbols graph
  let summaries := files.map ProcessedFile.summary
  ⟨summaries, symbols, graph, issues,
    aggregate summaries issues symbols.packageCount.toUInt64⟩

def readSource (files : FileTree) (path : String) : Except AuditError String := do
  let bytes ← (files.read path).mapError (.ofSource path)
  (Text.decode bytes).mapError fun fault => .sourceRead path { text := fault.message }

def processFile (files : FileTree) (parse : String → Source.Outcome) (s : Settings)
    (names : List String) : ProcessedFile :=
  match readSource files (Path.join s.scanPath (Path.ofNames names)) with
  | .error e => .failed names e.message
  | .ok source => .ofSource parse s.limits names source

structure Analysis where
  result : Except AuditError AnalysisResult
  progress : List Progress
  deriving Inhabited

def processFiles (files : FileTree) (parse : String → Source.Outcome) (s : Settings) (token : Token)
    (paths : List (List String)) : Processing.Outcome Token ProcessedFile :=
  Processing.run
    (fun token names => (token.check.map fun _ => processFile files parse s names, token)) token paths

def AnalysisResult.ofAssembly (root : String) (a : Assembly) (time : Timing) : AnalysisResult where
  projectRoot := root
  files := a.files
  projectIssues := a.issues
  metrics := a.metrics
  graphStatistics := a.graph.statistics
  duplicateTypes := a.symbols.duplicates
  analysisDate := time.date
  scanDuration := time.duration
  dependencyGraph := a.graph

def analyze (files : FileTree) (s : Settings) (time : Timing := {})
    (parse : String → Source.Outcome := Source.parse) (token : Token := {}) : Analysis :=
  let begun : Progress := ⟨0, 0, "Scanning directory: " ++ s.scanPath⟩
  match walk files s with
  | .error e => ⟨.error e, [begun]⟩
  | .ok walked =>
      let total := walked.files.length
      let found : Progress := ⟨0, total, "Found " ++ toString total ++ " source files"⟩
      let work := processFiles files parse s token walked.files
      let told := begun :: found :: work.reports
      match work.result with
      | .error e => ⟨.error e, told⟩
      | .ok processed =>
          ⟨.ok (.ofAssembly s.scanPath (assemble s.detectors processed) time),
            told ++ [⟨total, total, "Running project detectors"⟩, ⟨total, total, "Analysis complete"⟩]⟩

end JavaAudit
