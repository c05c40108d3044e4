import JavaAudit.Report.Text
import Mathlib.Algebra.BigOperators.Group.List.Basic
import Mathlib.Data.UInt

/-! The accounts of a project. Each counter holds what its files and issues come to, as long as that
fits into 64 bits, and what is reported at a severity is what was counted from it on. -/
namespace JavaAudit

inductive Counter where
  | files | parsed | failed | classes | methods | complexity
  | issues (s : Severity)
  deriving DecidableEq

def ProjectMetrics.counter (m : ProjectMetrics) : Counter → UInt64
  | .files => m.totalFiles
  | .parsed => m.successfullyParsed
  | .failed => m.parseFailures
  | .classes => m.totalClasses
  | .methods => m.totalMethods
  | .complexity => m.totalComplexity
  | .issues s => m.issueCounts.get s

def tally (files : List FileSummary) (issues : List ProjectIssue) : Counter → Nat
  | .files => files.length
  | .parsed => files.countP (·.parsed)
  | .failed => files.countP (!·.parsed)
  | .classes => (files.map (·.classCount.toNat)).sum
  | .methods => (files.map (·.methodCount.toNat)).sum
  | .complexity => (files.map (·.totalComplexity.toNat)).sum
  | .issues s => (files.flatMap FileSummary.issues).countP (·.severity = s) +
      issues.countP (·.severity = s)

theorem tallyAppend (files others : List FileSummary) (issues more : List ProjectIssue)
    (c : Counter) : tally (files ++ others) (issues ++ more) c =
      tally files issues c + tally others more c := by
  cases c <;> simp [tally, Nat.add_assoc, Nat.add_left_comm]

theorem tallyPerm {files others : List FileSummary} {issues more : List ProjectIssue}
    (sameFiles : files.Perm others) (sameIssues : issues.Perm more) (c : Counter) :
    tally files issues c = tally others more c := by
  cases c with
  | files => exact sameFiles.length_eq
  | parsed | failed => exact sameFiles.countP_eq _
  | classes | methods | complexity => exact (sameFiles.map _).sum_eq
  | issues s =>
    have below := (sameFiles.flatMap_right FileSummary.issues).countP_eq (·.severity = s)
    simp only [tally, below, sameIssues.countP_eq]

def Rearranged (files others : List FileSummary) : Prop :=
  ∃ between, files.Forall₂ (fun f g => g = { f with issues := g.issues } ∧ f.issues.Perm g.issues)
    between ∧ between.Perm others

theorem tallyRearranged {files others : List FileSummary} {issues more : List ProjectIssue}
    (sameFiles : Rearranged files others) (sameIssues : issues.Perm more) (c : Counter) :
    tally files issues c = tally others more c := by
  obtain ⟨between, inside, arranged⟩ := sameFiles
  -- First the files change places, then each of them its issues.
  rw [← tallyPerm arranged sameIssues]
  clear arranged
  induction inside with
  | nil => rfl
  | @cons f g files between own _ ih =>
    have one : tally [f] [] c = tally [g] [] c := by
      obtain ⟨same, perm⟩ := own
      rw [same]
      cases c with
      | issues s => simpa [tally] using perm.countP_eq (·.severity = s)
      | _ => rfl
    have first := tallyAppend [f] files [] issues c
    have second := tallyAppend [g] between [] issues c
    rw [one, ih, ← second] at first
    exact first

theorem bumpsGet (counts : SeverityCounts) (found : List Severity) (s : Severity) :
    (found.foldl SeverityCounts.bump counts).get s =
      counts.get s + UInt64.ofNat (found.countP (· = s)) := by
  induction found generalizing counts with
  | nil => simp
  | cons t found ih =>
    rw [List.foldl_cons, ih, SeverityCounts.getBump]
    by_cases same : t = s
    · rw [if_pos same, List.countP_cons_of_pos (by simpa using same), Nat.add_comm,
        UInt64.ofNat_add, UInt64.add_assoc]
      rfl
    · rw [if_neg same, List.countP_cons_of_neg (by simpa using same)]

theorem addFileCounter (m : ProjectMetrics) (f : FileSummary) (c : Counter) :
    (m.addFile f).counter c = m.counter c + UInt64.ofNat (tally [f] [] c) := by
  cases c with
  | files => rfl
  | parsed | failed =>
    cases ok : f.parsed <;> simp [ProjectMetrics.counter, ProjectMetrics.addFile, tally, ok]
  | classes | methods | complexity => simp [ProjectMetrics.counter, ProjectMetrics.addFile, tally]
  | issues s =>
    simp only [ProjectMetrics.counter, ProjectMetrics.addFile, bumpsGet, tally]
    simp [List.countP_map, Function.comp_def]

theorem addFilesCounter (m : ProjectMetrics) (files : List FileSummary) (c : Counter) :
    (files.foldl ProjectMetrics.addFile m).counter c =
      m.counter c + UInt64.ofNat (tally files [] c) := by
  induction files generalizing m with
  | nil => cases c <;> simp [tally]
  | cons f files ih =>
    have parts : tally (f :: files) [] c = tally [f] [] c + tally files [] c :=
      tallyAppend [f] files [] [] c
    rw [List.foldl_cons, ih, addFileCounter, parts, UInt64.ofNat_add, UInt64.add_assoc]

theorem aggregateCounter (files : List FileSummary) (issues : List ProjectIssue)
    (packages : UInt64) (c : Counter) :
    (aggregate files issues packages).counter c = UInt64.ofNat (tally files issues c) := by
  have counted := addFilesCounter { totalPackages := packages } files c
  have parts : tally files issues c = tally files [] c + tally [] issues c := by
    simpa using tallyAppend files [] [] issues c
  have start : ({ totalPackages := packages } : ProjectMetrics).counter c = 0 := by
    cases c with
    | issues s => cases s <;> rfl
    | _ => rfl
  rw [start, UInt64.zero_add] at counted
  rw [parts, UInt64.ofNat_add, ← counted]
  -- Issues of the project come on top of those of the files and reach no other counter.
  cases c with
  | issues s =>
    have found : (issues.map ProjectIssue.severity).countP (· = s) =
        tally [] issues (.issues s) := by
      simp [tally, List.countP_map, Function.comp_def]
    rw [← found]
    exact bumpsGet _ _ s
  | _ => exact (UInt64.add_zero _).symm

theorem aggregatePackages (files : List FileSummary) (issues : List ProjectIssue)
    (packages : UInt64) : (aggregate files issues packages).totalPackages = packages := by
  have kept : ∀ m : ProjectMetrics,
      (files.foldl ProjectMetrics.addFile m).totalPackages = m.totalPackages := by
    induction files with
    | nil => exact fun _ => rfl
    | cons f files ih => exact fun m => ih (m.addFile f)
  exact kept _

structure Fits (files : List FileSummary) (issues : List ProjectIssue) : Prop where
  fewFiles : files.length < UInt64.size
  fewClasses : (files.map (·.classCount.toNat)).sum < UInt64.size
  fewMethods : (files.map (·.methodCount.toNat)).sum < UInt64.size
  littleComplexity : (files.map (·.totalComplexity.toNat)).sum < UInt64.size
  fewIssues : (files.flatMap FileSummary.issues).length + issues.length < UInt64.size

theorem Fits.fewAmong {files : List FileSummary} {issues : List ProjectIssue}
    (fits : Fits files issues) (p : FileIssue → Bool) (q : ProjectIssue → Bool) :
    (files.flatMap FileSummary.issues).countP p + issues.countP q < UInt64.size :=
  Nat.lt_of_le_of_lt (Nat.add_le_add List.countP_le_length List.countP_le_length) fits.fewIssues

theorem Fits.tally {files : List FileSummary} {issues : List ProjectIssue}
    (fits : Fits files issues) (c : Counter) : tally files issues c < UInt64.size := by
  cases c with
  | files => exact fits.fewFiles
  | parsed | failed => exact Nat.lt_of_le_of_lt List.countP_le_length fits.fewFiles
  | classes => exact fits.fewClasses
  | methods => exact fits.fewMethods
  | complexity => exact fits.littleComplexity
  | issues s => exact fits.fewAmong _ _

theorem Fits.counter {files : List FileSummary} {issues : List ProjectIssue}
    (fits : Fits files issues) (packages : UInt64) (c : Counter) :
    ((aggregate files issues packages).counter c).toNat = JavaAudit.tally files issues c := by
  rw [aggregateCounter, UInt64.toNat_ofNat_of_lt' (fits.tally c)]

theorem SeverityCounts.eqOfGet {a b : SeverityCounts} (same : ∀ s, a.get s = b.get s) : a = b := by
  obtain ⟨⟩ := a
  obtain ⟨⟩ := b
  simp only [mk.injEq]
  exact ⟨same .info, same .warning, same .error, same .critical⟩

theorem countFrom {α : Type} (severity : α → Severity) (found : List α) (least : Severity) :
    found.countP (least ≤ severity ·) =
      ((Severity.all.filter (least ≤ ·)).map fun s => found.countP (severity · = s)).sum := by
  induction found with
  | nil => cases least <;> rfl
  | cons x found ih =>
    have own : ∀ t : Severity, (if decide (least ≤ t) = true then 1 else 0) =
        ((Severity.all.filter (least ≤ ·)).map fun s =>
          if decide (t = s) = true then 1 else 0).sum := by
      intro t
      cases least <;> cases t <;> rfl
    simp only [List.countP_cons, ih, List.sum_map_add, own]

theorem issuesFromLength (r : AnalysisResult) (least : Severity) :
    (r.issuesFrom least).length =
      (r.files.flatMap FileSummary.issues).countP (least ≤ ·.severity) +
        r.projectIssues.countP (least ≤ ·.severity) := by
  unfold AnalysisResult.issuesFrom AnalysisResult.issues
  rw [← List.countP_eq_length_filter, List.countP_append, List.countP_map, List.countP_flatMap,
    List.countP_flatMap]
  simp only [Function.comp_def, List.countP_map]
  rfl

theorem totalToNat {c : SeverityCounts}
    (fits : (Severity.all.map fun s => (c.get s).toNat).sum < UInt64.size) :
    c.total.toNat = (Severity.all.map fun s => (c.get s).toNat).sum := by
  simp only [Severity.all, List.map_cons, List.map_nil, List.sum_cons, List.sum_nil,
    SeverityCounts.get] at *
  have size : UInt64.size = 2 ^ 64 := rfl
  simp only [SeverityCounts.total, UInt64.toNat_add]
  omega

theorem quietNumbers (r : AnalysisResult) :
    Report.quiet r = "Score: " ++ Report.scoreText r.metrics ++ ", files: " ++
      toString r.metrics.totalFiles.toNat ++ ", parse failures: " ++
      toString r.metrics.parseFailures.toNat ++ ", issues: " ++
      toString r.metrics.issueCounts.total.toNat ++ "\n" :=
  rfl

section Account

variable {files : List FileSummary} {issues : List ProjectIssue} {packages : UInt64}

theorem Fits.parsedOrFailed (fits : Fits files issues) :
    (aggregate files issues packages).successfullyParsed.toNat +
      (aggregate files issues packages).parseFailures.toNat = files.length := by
  have parsed := fits.counter packages .parsed
  have failed := fits.counter packages .failed
  simp only [JavaAudit.tally, ProjectMetrics.counter] at parsed failed
  rw [parsed, failed, List.length_eq_countP_add_countP (·.parsed)]
  simp

theorem Fits.parts (fits : Fits files issues) {first second : List FileSummary}
    {found more : List ProjectIssue} (allFiles : first ++ second = files)
    (allIssues : found ++ more = issues) (c : Counter) :
    ((aggregate files issues packages).counter c).toNat =
      ((aggregate first found packages).counter c).toNat +
        ((aggregate second more packages).counter c).toNat := by
  subst allFiles allIssues
  have whole := fits.tally c
  have parts := tallyAppend first second found more c
  rw [fits.counter, aggregateCounter, aggregateCounter, UInt64.toNat_ofNat_of_lt' (by omega),
    UInt64.toNat_ofNat_of_lt' (by omega), parts]

theorem rearrangedCounters {others : List FileSummary} {more : List ProjectIssue}
    (sameFiles : Rearranged files others) (sameIssues : issues.Perm more) (c : Counter) :
    (aggregate others more packages).counter c = (aggregate files issues packages).counter c := by
  rw [aggregateCounter, aggregateCounter, tallyRearranged sameFiles sameIssues]

theorem rearrangedScore {others : List FileSummary} {more : List ProjectIssue}
    (sameFiles : Rearranged files others) (sameIssues : issues.Perm more) :
    (aggregate others more packages).score = (aggregate files issues packages).score := by
  have counts : (aggregate others more packages).issueCounts =
      (aggregate files issues packages).issueCounts :=
    SeverityCounts.eqOfGet fun s => rearrangedCounters sameFiles sameIssues (.issues s)
  exact congrArg qualityScore counts

variable {r : AnalysisResult} (sameFiles : r.files = files) (sameIssues : r.projectIssues = issues)

include sameFiles sameIssues

theorem Fits.rows (fits : Fits files issues) (least : Severity) :
    (r.issuesFrom least).length = ((Severity.all.filter (least ≤ ·)).map fun s =>
      ((aggregate files issues packages).issueCounts.get s).toNat).sum := by
  have each : (fun s => ((aggregate files issues packages).issueCounts.get s).toNat) =
      fun s => JavaAudit.tally files issues (.issues s) :=
    funext fun s => fits.counter packages (.issues s)
  rw [issuesFromLength, countFrom FileIssue.severity, countFrom ProjectIssue.severity, each,
    ← List.sum_map_add, sameFiles, sameIssues]
  rfl

theorem Fits.total (fits : Fits files issues) :
    (aggregate files issues packages).issueCounts.total.toNat = (r.issuesFrom .info).length := by
  have all : (r.issuesFrom .info).length = (Severity.all.map fun s =>
      ((aggregate files issues packages).issueCounts.get s).toNat).sum :=
    fits.rows sameFiles sameIssues .info
  have few : (r.issuesFrom .info).length < UInt64.size := by
    rw [issuesFromLength, sameFiles, sameIssues]
    exact fits.fewAmong _ _
  rw [totalToNat (all ▸ few), all]

end Account

theorem accountsAgree {files : List FileSummary} {issues : List ProjectIssue}
    (fits : Fits files issues) (packages : UInt64) :
    let m := aggregate files issues packages
    (m.totalFiles.toNat = files.length ∧
      m.successfullyParsed.toNat + m.parseFailures.toNat = files.length ∧
      m.parseFailures.toNat = files.countP (!·.parsed)) ∧
    (m.totalClasses.toNat = (files.map (·.classCount.toNat)).sum ∧
      m.totalMethods.toNat = (files.map (·.methodCount.toNat)).sum ∧
      m.totalComplexity.toNat = (files.map (·.totalComplexity.toNat)).sum ∧
      m.totalPackages = packages) ∧
    (∀ s, (m.issueCounts.get s).toNat =
      (files.flatMap FileSummary.issues).countP (·.severity = s) +
        issues.countP (·.severity = s)) ∧
    (∀ others more, Rearranged files others → issues.Perm more →
      (∀ c, (aggregate others more packages).counter c = m.counter c) ∧
        (aggregate others more packages).totalPackages = m.totalPackages ∧
        (aggregate others more packages).score = m.score) ∧
    (∀ first second found more, first ++ second = files → found ++ more = issues → ∀ c,
      (m.counter c).toNat = ((aggregate first found packages).counter c).toNat +
        ((aggregate second more packages).counter c).toNat) ∧
    ∀ r : AnalysisResult, r.files = files → r.projectIssues = issues → r.metrics = m →
      (∀ least, (r.issuesFrom least).length =
        ((Severity.all.filter (least ≤ ·)).map fun s => (m.issueCounts.get s).toNat).sum) ∧
      m.issueCounts.total.toNat = (r.issuesFrom .info).length ∧
      Report.quiet r = "Score: " ++ Report.scoreText m ++ ", files: " ++ toString files.length ++
        ", parse failures: " ++ toString r.failedFiles.length ++ ", issues: " ++
        toString (r.issuesFrom .info).length ++ "\n" := by
  intro m
  have counter : ∀ c, (m.counter c).toNat = tally files issues c := fits.counter packages
  refine ⟨⟨counter .files, fits.parsedOrFailed, counter .failed⟩, ⟨counter .classes,
    counter .methods, counter .complexity, aggregatePackages files issues packages⟩,
    fun s => counter (.issues s), ?_, ?_, ?_⟩
  · intro others more sameFiles sameIssues
    refine ⟨rearrangedCounters sameFiles sameIssues, ?_, rearrangedScore sameFiles sameIssues⟩
    rw [aggregatePackages, aggregatePackages]
  · intro first second found more allFiles allIssues c
    exact fits.parts allFiles allIssues c
  · intro r sameFiles sameIssues sameMetrics
    have total : m.issueCounts.total.toNat = (r.issuesFrom .info).length :=
      fits.total sameFiles sameIssues
    have failures : m.parseFailures.toNat = r.failedFiles.length := by
      rw [AnalysisResult.failedFiles, sameFiles, ← List.countP_eq_length_filter]
      exact counter .failed
    have all : m.totalFiles.toNat = files.length := counter .files
    refine ⟨fits.rows sameFiles sameIssues, total, ?_⟩
    rw [quietNumbers, sameMetrics, all, failures, total]

theorem accountsAgreeFailedFile :
    let issue (s : Severity) : FileIssue := { (default : FileIssue) with severity := s }
    let good : FileSummary := { (default : FileSummary) with
      parsed := true, classCount := 2, methodCount := 3, totalComplexity := 7
      issues := [issue .warning, issue .info] }
    let bad : FileSummary := { (default : FileSummary) with parsed := false }
    let cyclic : ProjectIssue := { (default : ProjectIssue) with severity := .critical }
    let m := aggregate [good, bad] [cyclic] 1
    let r : AnalysisResult := { (default : AnalysisResult) with
      files := [good, bad], projectIssues := [cyclic], metrics := m }
    Fits [good, bad] [cyclic] ∧ m.totalFiles.toNat = 2 ∧ m.parseFailures.toNat = 1 ∧
    m.totalComplexity.toNat = 7 ∧ (m.issueCounts.get .critical).toNat = 1 ∧
    (aggregate [bad, good] [cyclic] 1).score = m.score ∧
    (r.issuesFrom .warning).length = (m.issueCounts.get .warning).toNat +
      ((m.issueCounts.get .error).toNat + ((m.issueCounts.get .critical).toNat + 0)) ∧
    m.issueCounts.total.toNat = (r.issuesFrom .info).length := by
  intro issue good bad cyclic m r
  have fits : Fits [good, bad] [cyclic] :=
    ⟨by decide, by decide, by decide, by decide, by decide⟩
  obtain ⟨⟨all, _, failed⟩, ⟨_, _, complexity, _⟩, counts, rearranged, _, shown⟩ :=
    accountsAgree fits 1
  obtain ⟨rows, total, _⟩ := shown r rfl rfl rfl
  have turned : Rearranged [good, bad] [bad, good] :=
    ⟨[good, bad], .cons ⟨rfl, .refl _⟩ (.cons ⟨rfl, .refl _⟩ .nil), .swap _ _ _⟩
  exact ⟨fits, all, failed, complexity, counts .critical, (rearranged _ _ turned (.refl _)).2.2,
    rows .warning, total⟩

end JavaAudit
