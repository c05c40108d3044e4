import JavaAudit.Proofs.Report.Moment
import JavaAudit.Report.Text
import Mathlib.Data.List.Basic

/-! Styles change nothing but the looks of a report. Without the controls that switch them, the text
with styles is the text without them, as long as no text of the result brings an escape character of
its own. -/
namespace JavaAudit

namespace StyledText

/-- What may stand between the bracket and the last letter of a control: digits, a semicolon and the
few characters that a terminal keeps for itself. -/
def isParameter (c : Char) : Bool := 48 ≤ c.toNat && c.toNat ≤ 63

def controlLength : List Char → Nat
  | first :: second :: rest =>
      if first = escapeChar ∧ second = '[' ∧ (rest.dropWhile isParameter).head? = some 'm' then
        (rest.takeWhile isParameter).length + 3
      else 0
  | _ => 0

def withoutControls : Nat → List Char → List Char
  | _, [] => []
  | skipped + 1, _ :: cs => withoutControls skipped cs
  | 0, c :: cs =>
      if controlLength (c :: cs) = 0 then c :: withoutControls 0 cs
      else withoutControls (controlLength (c :: cs) - 1) cs

def withoutStyles (text : String) : String := String.ofList (withoutControls 0 text.toList)

theorem skipAll (skipped rest : List Char) :
    withoutControls skipped.length (skipped ++ rest) = withoutControls 0 rest := by
  induction skipped with
  | nil => rfl
  | cons c skipped ih => simpa [withoutControls] using ih

theorem controlEscapes {c : Char} (other : c ≠ escapeChar) (cs : List Char) :
    controlLength (c :: cs) = 0 := by
  cases cs with
  | nil => rfl
  | cons second rest => simp [controlLength, other]

theorem keepUnescaped {kept : List Char} (free : escapeChar ∉ kept) (rest : List Char) :
    withoutControls 0 (kept ++ rest) = kept ++ withoutControls 0 rest := by
  induction kept with
  | nil => rfl
  | cons c kept ih =>
    obtain ⟨other, free⟩ := not_or.mp (mt List.mem_cons.mpr free)
    simp [withoutControls, controlEscapes (Ne.symm other), ih free]

theorem dropControl {code : String} (parameters : code.toList.all isParameter = true)
    (rest : List Char) :
    withoutControls 0 ((control code).toList ++ rest) = withoutControls 0 rest := by
  have each := List.all_eq_true.mp parameters
  have shape : (control code).toList ++ rest =
      escapeChar :: (('[' :: (code.toList ++ ['m'])) ++ rest) := by
    simp [control]
  have letter : isParameter 'm' = false := by decide
  have length : controlLength ((control code).toList ++ rest) =
      ('[' :: (code.toList ++ ['m'])).length + 1 := by
    simp [shape, controlLength, List.takeWhile_append_of_pos each,
      List.dropWhile_append_of_pos each, letter]
  rw [shape] at length ⊢
  rw [withoutControls, length, if_neg (by simp)]
  exact skipAll _ rest

theorem styleParameters (style : Style) : style.code.toList.all isParameter = true := by
  cases style with
  | plain hue => cases hue <;> decide
  | bold hue => cases hue <;> decide
  | dimmed => decide

def Unescaped (text : String) : Prop := escapeChar ∉ text.toList

instance (text : String) : Decidable (Unescaped text) :=
  inferInstanceAs (Decidable (escapeChar ∉ text.toList))

def Clear (t : StyledText) : Prop := ∀ p ∈ t, Unescaped p.text

theorem partWithoutStyles {p : StyledPart} (free : Unescaped p.text) (rest : List Char) :
    withoutControls 0 ((renderPart true p).toList ++ rest) =
      (renderPart false p).toList ++ withoutControls 0 rest := by
  obtain ⟨style, text⟩ := p
  cases style with
  | none => exact keepUnescaped free rest
  | some style =>
    have ends : "0".toList.all isParameter = true := by decide
    simp only [renderPart, if_true, Bool.false_eq_true, if_false, String.toList_append,
      List.append_assoc]
    rw [dropControl (styleParameters style), keepUnescaped free, dropControl ends]

theorem renderToList (colors : Bool) (t : StyledText) :
    (render colors t).toList = t.flatMap fun p => (renderPart colors p).toList := by
  simp [render, String.toList_join, List.flatMap_map]

theorem renderWithoutStyles {t : StyledText} (clear : Clear t) :
    withoutStyles (render true t) = render false t := by
  have chars : withoutControls 0 (render true t).toList = (render false t).toList := by
    simp only [renderToList]
    induction t with
    | nil => rfl
    | cons p t ih =>
      rw [List.flatMap_cons, partWithoutStyles (clear p List.mem_cons_self),
        ih fun p mem => clear p (List.mem_cons_of_mem _ mem), List.flatMap_cons]
  rw [withoutStyles, chars, String.ofList_toList]

theorem renderUnescaped {t : StyledText} (clear : Clear t) : Unescaped (render false t) := by
  rw [Unescaped, renderToList, List.mem_flatMap]
  rintro ⟨p, mem, escape⟩
  have plain : renderPart false p = p.text := by
    cases style : p.style <;> simp [renderPart, style]
  exact clear p mem (plain ▸ escape)

theorem renderEscapes {t : StyledText} {style : Style} {text : String}
    (mem : ⟨some style, text⟩ ∈ t) : ¬ Unescaped (render true t) := by
  refine fun free => free ?_
  rw [renderToList, List.mem_flatMap]
  exact ⟨_, mem, by simp [renderPart, control]⟩

theorem unescapedOfDigits {cs : List Char} (digits : ∀ c ∈ cs, c.isDigit) :
    escapeChar ∉ cs :=
  fun escape => absurd (digits escapeChar escape) (by decide)

@[simp] theorem unescapedAppend {left right : String} :
    Unescaped (left ++ right) ↔ Unescaped left ∧ Unescaped right := by
  simp [Unescaped]

@[simp] theorem unescapedNat (n : Nat) : Unescaped n.repr := by
  rw [Unescaped, Nat.toList_repr]
  exact unescapedOfDigits fun _ => Nat.isDigit_of_mem_toDigits (by decide) (by decide)

@[simp] theorem unescapedCounter (n : UInt64) : Unescaped (toString n) := unescapedNat n.toNat

@[simp] theorem clearNil : Clear [] ↔ True := by simp [Clear]

@[simp] theorem clearAppend {s t : StyledText} : Clear (s ++ t) ↔ Clear s ∧ Clear t := by
  simp [Clear, or_imp, forall_and]

@[simp] theorem clearPlain {text : String} : Clear (plain text) ↔ Unescaped text := by
  simp [Clear, plain]

@[simp] theorem clearStyled {style : Style} {text : String} :
    Clear (styled style text) ↔ Unescaped text := by
  simp [Clear, styled]

@[simp] theorem clearFlatMap {α : Type} {xs : List α} {f : α → StyledText} :
    Clear (xs.flatMap f) ↔ ∀ x ∈ xs, Clear (f x) := by
  simp only [Clear, List.mem_flatMap]
  constructor
  · exact fun clear x mem p part => clear p ⟨x, mem, part⟩
  · rintro clear p ⟨x, mem, part⟩
    exact clear x mem p part

end StyledText

open StyledText

@[simp] theorem unescapedSeverity (s : Severity) : Unescaped s.name := by
  cases s <;> decide

@[simp] theorem unescapedCode (c : IssueCode) : Unescaped c.name := by
  cases c <;> decide

@[simp] theorem unescapedBand (b : ScoreBand) : Unescaped b.label := by
  cases b <;> decide

@[simp] theorem unescapedDuration (d : Duration) : Unescaped d.write := by
  have millis : Unescaped (String.ofList (padded 3 d.millis)) := by
    rw [Unescaped, String.toList_ofList]
    exact unescapedOfDigits (paddedDigits 3 d.millis)
  unfold Duration.write
  split_ifs <;> simp +decide [millis]

theorem unescapedPlaces (places : Nat) (b : Decimal.Binary) : Unescaped (b.writePlaces places) := by
  have digits (n zeros : Nat) :
      escapeChar ∉ List.replicate zeros '0' ++ Decimal.digitChars n := by
    refine unescapedOfDigits fun c mem => ?_
    rcases List.mem_append.mp mem with zero | digit
    · rw [List.eq_of_mem_replicate zero]
      decide
    · exact Nat.isDigit_of_mem_toDigits (by decide) (by decide) digit
  have sign : escapeChar ∉ (if b.negative then ['-'] else []) := by
    split <;> decide
  simp only [Decimal.Binary.writePlaces, Unescaped, String.toList_ofList, List.mem_append,
    List.mem_cons, not_or]
  refine ⟨⟨sign, ?_⟩, by decide, ?_⟩
  · exact fun mem => digits _ _ (List.mem_of_mem_take mem)
  · exact fun mem => digits _ _ (List.mem_of_mem_drop mem)

@[simp] theorem unescapedTwoPlaces (x : Float) : Unescaped (Decimal.twoPlaces x) := by
  unfold Decimal.twoPlaces
  cases Decimal.Binary.ofFloat? x with
  | none => dsimp only; split_ifs <;> decide
  | some b => exact unescapedPlaces 2 b

/-- No text that a report can show brings an escape character. Packages and the graph itself are not
shown. -/
structure AnalysisResult.Plain (r : AnalysisResult) : Prop where
  root : Unescaped r.projectRoot
  paths : ∀ f ∈ r.files, Unescaped f.path
  reasons : ∀ f ∈ r.files, ∀ reason ∈ f.failureReason, Unescaped reason
  fileIssues : ∀ f ∈ r.files, ∀ i ∈ f.issues, Unescaped i.message ∧ Unescaped i.suggestion
  projectIssues : ∀ i ∈ r.projectIssues,
    Unescaped i.location ∧ Unescaped i.message ∧ Unescaped i.suggestion
  mostUsed : ∀ name ∈ r.graphStatistics.maxFanInType, Unescaped name
  mostUsing : ∀ name ∈ r.graphStatistics.maxFanOutType, Unescaped name
  duplicates : ∀ d ∈ r.duplicateTypes,
    Unescaped d.fullName ∧ Unescaped d.replacedFile ∧ Unescaped d.winningFile

theorem AnalysisResult.Plain.issues {r : AnalysisResult} (clean : r.Plain) (least : Severity) :
    ∀ i ∈ r.issuesFrom least, Unescaped i.location ∧ Unescaped i.message ∧ Unescaped i.suggestion := by
  intro i mem
  rcases List.mem_append.mp (List.mem_of_mem_filter mem) with mem | mem
  · obtain ⟨f, file, mem⟩ := List.mem_flatMap.mp mem
    obtain ⟨issue, found, rfl⟩ := List.mem_map.mp mem
    exact ⟨clean.paths f file, clean.fileIssues f file issue found⟩
  · obtain ⟨issue, found, rfl⟩ := List.mem_map.mp mem
    exact clean.projectIssues issue found

namespace Report

@[simp] theorem clearHeading {text : String} : Clear (heading text) ↔ Unescaped text := by
  simp +decide [heading]

@[simp] theorem clearLine {text : String} : Clear (line text) ↔ Unescaped text := by
  simp +decide [line]

@[simp] theorem clearEntry {name value : String} :
    Clear (entry name value) ↔ Unescaped name ∧ Unescaped value := by
  simp +decide [entry]

theorem clearIssueLines (verbose : Bool) {i : Issue} (location : Unescaped i.location)
    (message : Unescaped i.message) (suggestion : Unescaped i.suggestion) :
    Clear (issueLines verbose i) := by
  have own : Clear (issueLine i) := by
    cases place : i.line? <;> simp +decide [issueLine, place, location, message]
  cases verbose <;> simp +decide [issueLines, own, suggestion]

theorem clearIssueSection (least : Severity) (verbose : Bool) {issues : List Issue}
    (clean : ∀ i ∈ issues,
      Unescaped i.location ∧ Unescaped i.message ∧ Unescaped i.suggestion) :
    Clear (issueSection least verbose issues) := by
  have each : ∀ i ∈ issues, Clear (issueLines verbose i) := fun i mem =>
    clearIssueLines verbose (clean i mem).1 (clean i mem).2.1 (clean i mem).2.2
  unfold issueSection
  split_ifs
  · simp +decide
  · simpa +decide using each

theorem clearFailureSection {r : AnalysisResult} (clean : r.Plain) :
    Clear (failureSection r.failedFiles) := by
  have each : ∀ f ∈ r.failedFiles,
      Unescaped f.path ∧ Unescaped (f.failureReason.getD "unknown") := by
    intro f mem
    have file := List.mem_of_mem_filter mem
    refine ⟨clean.paths f file, ?_⟩
    cases reason : f.failureReason with
    | none => decide
    | some text => exact clean.reasons f file text reason
  unfold failureSection
  split_ifs
  · simp
  · simpa +decide using each

theorem clearGraphSection {r : AnalysisResult} (clean : r.Plain) :
    Clear (graphSection r.graphStatistics) := by
  have used := clean.mostUsed
  have user := clean.mostUsing
  unfold graphSection
  cases first : r.graphStatistics.maxFanInType with
  | none =>
    cases second : r.graphStatistics.maxFanOutType with
    | none => simp +decide
    | some name => simp +decide [user name second]
  | some other =>
    cases second : r.graphStatistics.maxFanOutType with
    | none => simp +decide [used other first]
    | some name => simp +decide [used other first, user name second]

theorem clearDuplicateSection {r : AnalysisResult} (clean : r.Plain) :
    Clear (duplicateSection r.duplicateTypes) := by
  have each := clean.duplicates
  unfold duplicateSection
  split_ifs
  · simp
  · simpa +decide using each

theorem clearStyledText {r : AnalysisResult} (clean : r.Plain) (least : Severity) (verbose : Bool) :
    Clear (styledText r least verbose) := by
  have root := clean.root
  have found := clearIssueSection least verbose (clean.issues least)
  have failed := clearFailureSection clean
  have graph := clearGraphSection clean
  have duplicates := clearDuplicateSection clean
  have counts : Clear (countsLine r.metrics.issueCounts) := by simp +decide [countsLine]
  have score : Unescaped (scoreText r.metrics) := by simp +decide [scoreText]
  have verboseParts : Clear (if verbose then failureSection r.failedFiles ++
      graphSection r.graphStatistics ++ duplicateSection r.duplicateTypes else []) := by
    cases verbose <;> simp [failed, graph, duplicates]
  unfold styledText
  simp +decide only [clearAppend, clearHeading, clearStyled, clearPlain, clearEntry, root, found,
    verboseParts, counts, score, unescapedCounter, unescapedTwoPlaces, unescapedDuration, and_self]

theorem stylesOnlyLooks {r : AnalysisResult} (clean : r.Plain) (least : Severity) (verbose : Bool) :
    withoutStyles (text r least true verbose) = text r least false verbose ∧
    escapeChar ∉ (text r least false verbose).toList ∧
    escapeChar ∈ (text r least true verbose).toList := by
  have clear := clearStyledText clean least verbose
  have title : ⟨some (.bold .blue), "Code Quality Report"⟩ ∈ styledText r least verbose := by
    unfold styledText
    simp only [List.append_assoc]
    exact List.mem_append_left _ List.mem_cons_self
  exact ⟨renderWithoutStyles clear, renderUnescaped clear, not_not.mp (renderEscapes title)⟩

theorem stylesOnlyLooksVerbose :
    let issue : FileIssue := ⟨.critical, .longMethod, "[31m in m()", "split\nit", 7⟩
    let good : FileSummary := { (default : FileSummary) with
      path := "a b/X.java", parsed := true, issues := [issue] }
    let bad : FileSummary := { (default : FileSummary) with
      path := "Y.java", parsed := false, failureReason := some "missing `;`" }
    let r : AnalysisResult := { (default : AnalysisResult) with
      projectRoot := "pro[0mject", files := [good, bad]
      projectIssues := [⟨.info, .godPackage, "large", "split", "p"⟩]
      graphStatistics := { maxFanInType := some "p.X", maxFanIn := 2 }
      duplicateTypes := [⟨"p.X", "X.java", "Z.java"⟩] }
    r.Plain ∧ withoutStyles (text r .info true true) = text r .info false true ∧
    withoutStyles (text r .error true false) = text r .error false false := by
  intro issue good bad r
  have clean : r.Plain :=
    ⟨by decide, by decide, by decide, by decide, by decide, by decide, by decide, by decide⟩
  exact ⟨clean, (stylesOnlyLooks clean .info true).1, (stylesOnlyLooks clean .error false).1⟩

end Report

end JavaAudit
