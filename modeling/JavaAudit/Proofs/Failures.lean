import JavaAudit.Proofs.Assembly
import JavaAudit.Proofs.Metrics
import JavaAudit.Proofs.Sorting

/-! A file that could not be read or parsed is counted and listed, and nothing else comes of it: all
that is made of a project with such a file is what is made of the project without it. -/
namespace JavaAudit

theorem sortFilesCons (f : ProcessedFile) (files : List ProcessedFile) :
    ∃ front back, sortFiles (f :: files) = front ++ f :: back ∧ sortFiles files = front ++ back ∧
      (∀ g ∈ front, (!Path.precedes f.names g.names) = true) ∧
      ∀ g ∈ back, Path.precedes f.names g.names = true :=
  @sortCons _ (fun a b : ProcessedFile => Path.precedes a.names b.names)
    (fun _ _ _ => Path.precedesTrans) (fun a b => Path.precedesTotal a.names b.names) f files

theorem sortFilesConsFilter (f : ProcessedFile) (files : List ProcessedFile) :
    sortFiles (f :: files) = (sortFiles files).filter (!Path.precedes f.names ·.names) ++
      f :: (sortFiles files).filter (Path.precedes f.names ·.names) :=
  @sortConsFilter _ (fun a b : ProcessedFile => Path.precedes a.names b.names)
    (fun _ _ _ => Path.precedesTrans) (fun a b => Path.precedesTotal a.names b.names) f files

/-- Wherever a file stands before the files are sorted, it is put between those that do not come
behind it and those that do not come in front of it. -/
theorem sortFilesInsert (before : List ProcessedFile) (f : ProcessedFile)
    (after : List ProcessedFile) :
    ∃ front back, sortFiles (before ++ after) = front ++ back ∧
      sortFiles (before ++ f :: after) = front ++ f :: back ∧
      (∀ g ∈ front, Path.precedes g.names f.names = true) ∧
      ∀ g ∈ back, Path.precedes f.names g.names = true := by
  have otherwise : ∀ a b : List String, ¬ Path.precedes a b = true → Path.precedes b a = true := by
    intro a b later
    simpa [later] using Path.precedesTotal a b
  induction before with
  | nil =>
    obtain ⟨front, back, placed, without, later, first⟩ := sortFilesCons f after
    exact ⟨front, back, without, placed, fun g mem => otherwise _ _ (by simpa using later g mem),
      first⟩
  | cons g before ih =>
    obtain ⟨front, back, without, included, ahead, behind⟩ := ih
    have among : ∀ (files : List ProcessedFile) (h : ProcessedFile),
        h ∈ files.filter (!Path.precedes g.names ·.names) ++
          g :: files.filter (Path.precedes g.names ·.names) → h = g ∨ h ∈ files := by
      intro files h mem
      simp only [List.mem_append, List.mem_cons, List.mem_filter] at mem
      tauto
    rw [List.cons_append, List.cons_append, sortFilesConsFilter, sortFilesConsFilter, without,
      included]
    -- The first file of the list joins the side on which it stands; the other side stays as it is.
    by_cases earlier : Path.precedes g.names f.names = true
    · have back₁ : back.filter (Path.precedes g.names ·.names) = back :=
        List.filter_eq_self.mpr fun h mem => Path.precedesTrans earlier (behind h mem)
      have back₂ : back.filter (!Path.precedes g.names ·.names) = [] :=
        List.filter_eq_nil_iff.mpr fun h mem => by
          simp [Path.precedesTrans earlier (behind h mem)]
      refine ⟨front.filter (!Path.precedes g.names ·.names) ++
        g :: front.filter (Path.precedes g.names ·.names), back, ?_, ?_, ?_, behind⟩
      · simp [back₁, back₂]
      · simp [earlier, back₁, back₂]
      · intro h mem
        rcases among front h mem with rfl | old
        · exact earlier
        · exact ahead h old
    · have later : ∀ h ∈ front, ¬ Path.precedes g.names h.names = true :=
        fun h mem less => earlier (Path.precedesTrans less (ahead h mem))
      have front₁ : front.filter (Path.precedes g.names ·.names) = [] :=
        List.filter_eq_nil_iff.mpr later
      have front₂ : front.filter (!Path.precedes g.names ·.names) = front :=
        List.filter_eq_self.mpr fun h mem => by simpa using later h mem
      refine ⟨front, back.filter (!Path.precedes g.names ·.names) ++
        g :: back.filter (Path.precedes g.names ·.names), ?_, ?_, ahead, ?_⟩
      · simp [front₁, front₂]
      · simp [earlier, front₁, front₂]
      · intro h mem
        rcases among back h mem with rfl | old
        · exact otherwise _ _ earlier
        · exact behind h old

def ProjectMetrics.countFailure (m : ProjectMetrics) : ProjectMetrics :=
  { m with totalFiles := m.totalFiles + 1, parseFailures := m.parseFailures + 1 }

theorem addFailed (m : ProjectMetrics) (names : List String) (reason : String)
    (issues : List FileIssue) :
    m.addFile (ProcessedFile.mk names (.error reason) issues).summary = m.countFailure := by
  simp [ProjectMetrics.addFile, ProjectMetrics.countFailure, ProcessedFile.summary]

theorem addAfterFailure (m : ProjectMetrics) (f : FileSummary) :
    m.countFailure.addFile f = (m.addFile f).countFailure := by
  have swapped : ∀ a b : UInt64, a + 1 + b = a + b + 1 := by
    intro a b
    rw [UInt64.add_assoc, UInt64.add_comm 1 b, ← UInt64.add_assoc]
  simp only [ProjectMetrics.addFile, ProjectMetrics.countFailure, swapped]

theorem addAllAfterFailure (m : ProjectMetrics) (files : List FileSummary) :
    files.foldl ProjectMetrics.addFile m.countFailure =
      (files.foldl ProjectMetrics.addFile m).countFailure := by
  induction files generalizing m with
  | nil => rfl
  | cons f files ih => rw [List.foldl_cons, List.foldl_cons, addAfterFailure, ih]

theorem aggregateFailed (front back : List FileSummary) (names : List String) (reason : String)
    (found : List FileIssue) (issues : List ProjectIssue) (packages : UInt64) :
    aggregate (front ++ (ProcessedFile.mk names (.error reason) found).summary :: back) issues
      packages = (aggregate (front ++ back) issues packages).countFailure := by
  simp only [aggregate, List.foldl_append, List.foldl_cons, addFailed, addAllAfterFailure]
  rfl

theorem assembleFailed (c : DetectorConfig) {before after front back : List ProcessedFile}
    {names : List String} {reason : String} {found : List FileIssue}
    (plain : sortFiles (before ++ after) = front ++ back)
    (placed : sortFiles (before ++ ⟨names, .error reason, found⟩ :: after) =
      front ++ ⟨names, .error reason, found⟩ :: back) :
    assemble c (before ++ ⟨names, .error reason, found⟩ :: after) =
      { assemble c (before ++ after) with
        files := (front ++ ⟨names, .error reason, found⟩ :: back).map ProcessedFile.summary
        metrics := (assemble c (before ++ after)).metrics.countFailure } := by
  have types : (front ++ ⟨names, .error reason, found⟩ :: back).flatMap ProcessedFile.types =
      (front ++ back).flatMap ProcessedFile.types := by
    simp only [List.flatMap_append, List.flatMap_cons]
    rfl
  have graph : ∀ symbols,
      buildGraph true symbols
        ((front ++ ⟨names, .error reason, found⟩ :: back).map ProcessedFile.facts?) =
      buildGraph true symbols ((front ++ back).map ProcessedFile.facts?) := by
    intro symbols
    simp only [buildGraph, List.map_append, List.map_cons, List.filterMap_append]
    rfl
  unfold assemble
  simp only [plain, placed, types, graph]
  simp only [List.map_append, List.map_cons, aggregateFailed]

theorem oneMoreFile {files : List FileSummary} (few : files.length + 1 < UInt64.size)
    (issues : List ProjectIssue) (packages : UInt64) (c : Counter)
    (atMost : tally files issues c ≤ files.length) :
    ((aggregate files issues packages).counter c + 1).toNat =
      ((aggregate files issues packages).counter c).toNat + 1 := by
  have below : tally files issues c + 1 < UInt64.size := by omega
  rw [aggregateCounter, UInt64.toNat_add, UInt64.toNat_ofNat_of_lt' (Nat.lt_of_succ_lt below)]
  exact Nat.mod_eq_of_lt below

theorem failedFileOnlyCounted (c : DetectorConfig) (before after : List ProcessedFile)
    (names : List String) (reason : String) (found : List FileIssue) :
    let bad : ProcessedFile := ⟨names, .error reason, found⟩
    let without := assemble c (before ++ after)
    let included := assemble c (before ++ bad :: after)
    (included.symbols = without.symbols ∧
      included.symbols.duplicates = without.symbols.duplicates ∧
      included.graph = without.graph ∧
      included.graph.statistics = without.graph.statistics ∧
      included.issues = without.issues) ∧
    included.metrics = { without.metrics with
      totalFiles := without.metrics.totalFiles + 1
      parseFailures := without.metrics.parseFailures + 1 } ∧
    ((before ++ after).length + 1 < UInt64.size →
      included.metrics.totalFiles.toNat = without.metrics.totalFiles.toNat + 1 ∧
      included.metrics.parseFailures.toNat = without.metrics.parseFailures.toNat + 1) ∧
    (∃ front back, sortFiles (before ++ after) = front ++ back ∧
      (∀ f ∈ front, Path.precedes f.names names = true) ∧
      (∀ f ∈ back, Path.precedes names f.names = true) ∧
      without.files = front.map ProcessedFile.summary ++ back.map ProcessedFile.summary ∧
      included.files = front.map ProcessedFile.summary ++
        { path := Path.ofNames names, parsed := false, failureReason := some reason, package := none
          classCount := 0, methodCount := 0, totalComplexity := 0, issues := [] } ::
        back.map ProcessedFile.summary) ∧
    ∀ root time, AnalysisResult.ofAssembly root included time =
      { AnalysisResult.ofAssembly root without time with
        files := included.files, metrics := included.metrics } := by
  intro bad without included
  obtain ⟨front, back, plain, placed, ahead, behind⟩ := sortFilesInsert before bad after
  have same : included = { without with
      files := (front ++ bad :: back).map ProcessedFile.summary
      metrics := without.metrics.countFailure } := assembleFailed c plain placed
  have files : without.files = (front ++ back).map ProcessedFile.summary := by
    rw [← plain]
    rfl
  refine ⟨by simp [same], by rw [same]; rfl, ?_, ?_, ?_⟩
  · intro few
    have size : without.files.length + 1 < UInt64.size := by
      rw [files, ← plain, List.length_map, (sortFilesPerm _).length_eq]
      exact few
    rw [same]
    exact ⟨oneMoreFile size without.issues _ .files (Nat.le_refl _),
      oneMoreFile size without.issues _ .failed List.countP_le_length⟩
  · refine ⟨front, back, plain, ahead, behind, by rw [files, List.map_append], ?_⟩
    rw [same, List.map_append]
    rfl
  · intro root time
    rw [same]
    rfl

theorem failedFileOnlyCountedBetween :
    let read (folder : String) : ProcessedFile :=
      ⟨[folder, "X.java"], .ok { FileFacts.empty with
        package := "p"
        types := [{ (default : TypeInfo) with
          fullName := "p.X", package := "p", file := folder ++ "/X.java" }] }, []⟩
    let broken : ProcessedFile := ⟨["a", "Y.java"], .error "unexpected token", []⟩
    let without := assemble {} [read "b", read "a"]
    let included := assemble {} [read "b", read "a", broken]
    [read "b", read "a"].length + 1 < UInt64.size ∧
    included.metrics.totalFiles.toNat = without.metrics.totalFiles.toNat + 1 ∧
    included.metrics.parseFailures.toNat = without.metrics.parseFailures.toNat + 1 ∧
    included.metrics.score = without.metrics.score ∧
    included.symbols.duplicates = [⟨"p.X", "a/X.java", "b/X.java"⟩] ∧
    included.files.map FileSummary.path = ["a/X.java", "a/Y.java", "b/X.java"] ∧
    included.files.map FileSummary.parsed = [true, false, true] := by
  intro read broken without included
  have few : [read "b", read "a"].length + 1 < UInt64.size := by decide
  obtain ⟨⟨_, duplicates, _⟩, metrics, larger, _, _⟩ :=
    failedFileOnlyCounted {} [read "b", read "a"] [] ["a", "Y.java"] "unexpected token" []
  have score : included.metrics.score = without.metrics.score :=
    (congrArg ProjectMetrics.score metrics :)
  have plain : sortFiles [read "b", read "a"] = [read "a", read "b"] :=
    sortFilesEq (by decide) (.swap _ _ []) (by decide)
  have placed : sortFiles [read "b", read "a", broken] = [read "a", broken, read "b"] :=
    sortFilesEq (by decide) ((List.Perm.swap _ _ []).cons _ |>.trans (.swap _ _ _)) (by decide)
  have kept : without.symbols.duplicates = [⟨"p.X", "a/X.java", "b/X.java"⟩] := by
    unfold without assemble
    rw [plain]
    decide
  refine ⟨few, (larger few).1, (larger few).2, score, duplicates.trans kept, ?_, ?_⟩
  all_goals
    unfold included assemble
    rw [placed]
    decide

end JavaAudit
