import JavaAudit.Analysis
import JavaAudit.Proofs.Decimal.Quotient
import JavaAudit.Proofs.Json.Values
import JavaAudit.Proofs.Report.Moment
import JavaAudit.Proofs.Settings.Loading
import JavaAudit.Report.Json

/-! The outcome of a run can be read back from its JSON form: each record from the value that was
written for it, and so the whole. -/
namespace JavaAudit

namespace Json

theorem readAll {α : Type} {toJson : α → Json} {ofJson? : Json → Option α}
    (each : ∀ a, ofJson? (toJson a).reread = some a) (as : List α) :
    (rereadItems (as.map toJson)).mapM ofJson? = some as := by
  induction as with
  | nil => rfl
  | cons a as ih => simp [rereadItems, List.mapM_cons, each, ih]

@[simp]
theorem rereadNat (n : Nat) : (nat n).reread = nat n := by rw [nat, reread]

@[simp]
theorem readNat (n : Nat) : (nat n).nat? = some n := by simp [nat, nat?]

@[simp]
theorem readWord (n : UInt64) : (nat n.toNat).word? = some n := by
  simp [word?, readNat, n.toNat_lt]

@[simp]
theorem rereadOption (o : Option String) : (ofOption text o).reread = ofOption text o := by
  cases o <;> simp [ofOption, reread]

@[simp]
theorem readOption (o : Option String) : (ofOption text o).option? text? = some o := by
  cases o <;> simp [ofOption, option?, text?]

end Json

@[simp]
theorem severityRead (s : Severity) : Severity.ofName? s.name = some s := by
  cases s <;> decide

@[simp]
theorem codeRead (c : IssueCode) : IssueCode.ofName? c.name = some c := by
  cases c <;> decide

section Records
open Json

theorem fileIssueRead (i : FileIssue) : FileIssue.ofJson? i.toJson.reread = some i := by
  simp [FileIssue.ofJson?, FileIssue.toJson, reread, rereadFields, field?, text?]

theorem projectIssueRead (i : ProjectIssue) : ProjectIssue.ofJson? i.toJson.reread = some i := by
  simp [ProjectIssue.ofJson?, ProjectIssue.toJson, reread, rereadFields, field?, text?]

theorem fileSummaryRead (f : FileSummary) : FileSummary.ofJson? f.toJson.reread = some f := by
  simp [FileSummary.ofJson?, FileSummary.toJson, reread, rereadFields, field?, text?, boolean?,
    list?, readAll fileIssueRead]

theorem severityCountsRead (c : SeverityCounts) :
    SeverityCounts.ofJson? c.toJson.reread = some c := by
  simp [SeverityCounts.ofJson?, SeverityCounts.toJson, reread, rereadFields, field?]

theorem averageRead {x : Float} (finite : x.isFinite) : ∃ y, restored x = .float y := by
  obtain ⟨b, exact⟩ := Option.isSome_iff_exists.mp ((Decimal.ofFloatSome x).trans finite)
  obtain ⟨n, float, -, same⟩ := restoredSome exact
  rw [same]
  exact floatValue float

theorem averageLost {x : Float} (undefined : x.isFinite = false) : restored x = .null := by
  refine restoredNone (Option.not_isSome_iff_eq_none.mp ?_)
  rw [Decimal.ofFloatSome, undefined]
  exact Bool.false_ne_true

theorem metricsRead {m : ProjectMetrics} (complexity : m.avgComplexityPerMethod.isFinite)
    (methods : m.avgMethodsPerClass.isFinite) :
    ∃ x y, ProjectMetrics.ofJson? m.toJson.reread =
      some { m with avgComplexityPerMethod := x, avgMethodsPerClass := y } := by
  obtain ⟨x, first⟩ := averageRead complexity
  obtain ⟨y, second⟩ := averageRead methods
  refine ⟨x, y, ?_⟩
  simp [ProjectMetrics.ofJson?, ProjectMetrics.toJson, reread, rereadFields, field?, float?,
    severityCountsRead, first, second]

theorem metricsLost {m : ProjectMetrics}
    (undefined : ¬ (m.avgComplexityPerMethod.isFinite ∧ m.avgMethodsPerClass.isFinite)) :
    ProjectMetrics.ofJson? m.toJson.reread = none := by
  cases complexity : m.avgComplexityPerMethod.isFinite with
  | false =>
    simp [ProjectMetrics.ofJson?, ProjectMetrics.toJson, reread, rereadFields, field?, float?,
      averageLost complexity]
  | true =>
    obtain ⟨x, first⟩ := averageRead complexity
    have methods : m.avgMethodsPerClass.isFinite = false := by simpa [complexity] using undefined
    simp [ProjectMetrics.ofJson?, ProjectMetrics.toJson, reread, rereadFields, field?, float?, first,
      averageLost methods]

theorem graphStatisticsRead (s : GraphStatistics) :
    GraphStatistics.ofJson? s.toJson.reread = some s := by
  simp [GraphStatistics.ofJson?, GraphStatistics.toJson, reread, rereadFields, field?]

theorem duplicateTypeRead (d : DuplicateType) : DuplicateType.ofJson? d.toJson.reread = some d := by
  simp [DuplicateType.ofJson?, DuplicateType.toJson, reread, rereadFields, field?, text?]

theorem durationRead {d : Duration} (short : d.nanos < Duration.nanosPerSecond) :
    Duration.ofJson? d.toJson.reread = some d := by
  simp [Duration.ofJson?, Duration.toJson, reread, rereadFields, field?, Duration.ofParts,
    Nat.div_eq_of_lt short, Nat.mod_eq_of_lt short]

theorem outcomeRead {r : AnalysisResult}
    (date : Moment.read? r.analysisDate.write = some r.analysisDate)
    (short : r.scanDuration.nanos < Duration.nanosPerSecond)
    (complexity : r.metrics.avgComplexityPerMethod.isFinite)
    (methods : r.metrics.avgMethodsPerClass.isFinite) :
    ∃ x y, AnalysisResult.ofJson? r.toJson.reread = some { r with
      metrics := { r.metrics with avgComplexityPerMethod := x, avgMethodsPerClass := y }
      dependencyGraph := .empty } := by
  obtain ⟨x, y, metrics⟩ := metricsRead complexity methods
  refine ⟨x, y, ?_⟩
  simp [AnalysisResult.ofJson?, AnalysisResult.toJson, reread, rereadFields, field?, text?, list?,
    readAll fileSummaryRead, readAll projectIssueRead, readAll duplicateTypeRead,
    graphStatisticsRead, durationRead short, metrics, date]

theorem outcomeLost {r : AnalysisResult}
    (undefined : ¬ (r.metrics.avgComplexityPerMethod.isFinite ∧ r.metrics.avgMethodsPerClass.isFinite)) :
    AnalysisResult.ofJson? r.toJson.reread = none := by
  simp [AnalysisResult.ofJson?, AnalysisResult.toJson, reread, rereadFields, field?, text?, list?,
    metricsLost undefined]

end Records

theorem aggregateFinite (files : List FileSummary) (issues : List ProjectIssue)
    (packages : UInt64) :
    (aggregate files issues packages).avgComplexityPerMethod.isFinite ∧
      (aggregate files issues packages).avgMethodsPerClass.isFinite :=
  ⟨Decimal.ratioFinite _ _, Decimal.ratioFinite _ _⟩

namespace Report

theorem readWrittenOutcome (r : AnalysisResult) :
    readJson? (json r) = AnalysisResult.ofJson? r.toJson.reread := by
  have value : Json.read? (json r) = some r.toJson.reread := (Json.readBothLayouts r.toJson).2
  rw [readJson?, value]
  rfl

end Report

end JavaAudit
