import JavaAudit.Proofs.Metrics

/-! The score against the exact weight of all issues. The weight is computed in signed arithmetic of
64 bits, so the score is exact as long as the weight stays below the middle of that range. Above it
the score may come back up to a hundred. -/
namespace JavaAudit

def SeverityCounts.weight (c : SeverityCounts) : Nat :=
  20 * c.critical.toNat + 10 * c.error.toNat + 3 * c.warning.toNat + c.info.toNat

theorem signedCounter (n : UInt64) : n.toInt64.toInt = (n.toNat : Int).bmod (2 ^ 64) :=
  BitVec.toInt_eq_toNat_bmod n.toBitVec

theorem penaltyWraps (c : SeverityCounts) : c.penalty.toInt = (c.weight : Int).bmod (2 ^ 64) := by
  have critical : (Severity.penalty .critical).toInt = 20 := rfl
  have error : (Severity.penalty .error).toInt = 10 := rfl
  have warning : (Severity.penalty .warning).toInt = 3 := rfl
  have info : (Severity.penalty .info).toInt = 1 := rfl
  simp only [SeverityCounts.penalty, Int64.toInt_add, Int64.toInt_mul, signedCounter, critical,
    error, warning, info, Int.mul_bmod_bmod, Int.bmod_add_bmod, Int.add_bmod_bmod]
  simp [SeverityCounts.weight]

theorem leftWraps (c : SeverityCounts) :
    (100 - c.penalty).toInt = (100 - (c.weight : Int)).bmod (2 ^ 64) := by
  have hundred : (100 : Int64).toInt = 100 := rfl
  rw [Int64.toInt_sub, penaltyWraps, hundred, Int.sub_bmod_bmod]

/-- Only the weight modulo `2 ^ 64` counts, and the upper half of that range is read as negative. -/
theorem scoreByWeight (c : SeverityCounts) :
    qualityScore c =
      if c.weight % 2 ^ 64 ≤ 2 ^ 63 + 100 then 100 - c.weight % 2 ^ 64 else 100 := by
  rw [qualityScore, leftWraps, Int.bmod_def]
  split_ifs <;> omega

theorem scoreOfWeight {c : SeverityCounts} (bound : c.weight ≤ 2 ^ 63 + 100) :
    qualityScore c = 100 - c.weight := by
  have small : c.weight % 2 ^ 64 = c.weight := Nat.mod_eq_of_lt (by omega)
  rw [scoreByWeight, small, if_pos bound]

theorem weightMono {c d : SeverityCounts} (more : ∀ s, c.get s ≤ d.get s) : c.weight ≤ d.weight := by
  have critical := UInt64.le_iff_toNat_le.mp (more .critical)
  have error := UInt64.le_iff_toNat_le.mp (more .error)
  have warning := UInt64.le_iff_toNat_le.mp (more .warning)
  have info := UInt64.le_iff_toNat_le.mp (more .info)
  simp only [SeverityCounts.get] at critical error warning info
  simp only [SeverityCounts.weight]
  omega

theorem tallyTotal (files : List FileSummary) (issues : List ProjectIssue) :
    tally files issues (.issues .critical) + tally files issues (.issues .error) +
      tally files issues (.issues .warning) + tally files issues (.issues .info) =
      (files.flatMap FileSummary.issues).length + issues.length := by
  have below := countFrom FileIssue.severity (files.flatMap FileSummary.issues) .info
  have above := countFrom ProjectIssue.severity issues .info
  have all : ∀ s : Severity, decide (Severity.info ≤ s) = true := fun s => by cases s <;> rfl
  simp only [all, List.countP_true, List.filter_true, Severity.all, List.map_cons, List.map_nil,
    List.sum_cons, List.sum_nil] at below above
  simp only [tally]
  omega

theorem aggregateWeight {files : List FileSummary} {issues : List ProjectIssue}
    (few : (files.flatMap FileSummary.issues).length + issues.length < 2 ^ 64) (packages : UInt64) :
    (aggregate files issues packages).issueCounts.weight =
      20 * tally files issues (.issues .critical) + 10 * tally files issues (.issues .error) +
        3 * tally files issues (.issues .warning) + tally files issues (.issues .info) := by
  have total := tallyTotal files issues
  have count : ∀ s, tally files issues (.issues s) < 2 ^ 64 →
      ((aggregate files issues packages).issueCounts.get s).toNat =
        tally files issues (.issues s) := by
    intro s fits
    have counted := aggregateCounter files issues packages (.issues s)
    rw [ProjectMetrics.counter] at counted
    rw [counted, UInt64.toNat_ofNat_of_lt' fits]
  rw [← count .critical (by omega), ← count .error (by omega), ← count .warning (by omega),
    ← count .info (by omega)]
  rfl

theorem scoreExactIff (c : SeverityCounts) :
    qualityScore c ≤ 100 ∧
    ((qualityScore c : Int) = max 0 (100 - (20 * c.critical.toNat + 10 * c.error.toNat +
        3 * c.warning.toNat + c.info.toNat)) ↔
      c.weight < 100 ∨ 100 ≤ c.weight % 2 ^ 64 ∧ c.weight % 2 ^ 64 ≤ 2 ^ 63 + 100) ∧
    (∀ d : SeverityCounts, (∀ s, c.get s ≤ d.get s) → d.weight ≤ 2 ^ 63 + 100 →
      qualityScore d ≤ qualityScore c) ∧
    ∀ files issues packages,
      20 * ((files.flatMap FileSummary.issues).length + issues.length) ≤ 2 ^ 63 + 100 →
      ((aggregate files issues packages).score : Int) =
        max 0 (100 - (20 * tally files issues (.issues .critical) +
          10 * tally files issues (.issues .error) + 3 * tally files issues (.issues .warning) +
          tally files issues (.issues .info))) := by
  have byWeight := scoreByWeight c
  have weight : c.weight = 20 * c.critical.toNat + 10 * c.error.toNat + 3 * c.warning.toNat +
    c.info.toNat := rfl
  refine ⟨Nat.min_le_right _ _, ?_, fun d more bound => ?_, fun files issues packages few => ?_⟩
  · split_ifs at byWeight <;> omega
  · have less := weightMono more
    rw [scoreOfWeight bound, scoreOfWeight (by omega)]
    omega
  · have total := tallyTotal files issues
    have exact := @aggregateWeight files issues (by omega) packages
    have score : (aggregate files issues packages).score =
      qualityScore (aggregate files issues packages).issueCounts := rfl
    rw [score, scoreOfWeight (by omega), exact]
    omega

theorem scoreExactIffMixed :
    let c : SeverityCounts := ⟨1, 2, 1, 2⟩
    let d : SeverityCounts := ⟨9223372036854775806, 2, 1, 2⟩
    let issue (s : Severity) : ProjectIssue := { (default : ProjectIssue) with severity := s }
    c.weight = 57 ∧ (qualityScore c : Int) = max 0 (100 - (20 * 2 + 10 * 1 + 3 * 2 + 1)) ∧
    d.weight ≤ 2 ^ 63 + 100 ∧ qualityScore d ≤ qualityScore c ∧
    ((aggregate [] [issue .critical, issue .warning] 1).score : Int) = 77 := by
  intro c d issue
  obtain ⟨-, exact, mono, found⟩ := scoreExactIff c
  have weight : c.weight = 57 := by decide
  have bound : d.weight ≤ 2 ^ 63 + 100 := by decide
  have more : ∀ s, c.get s ≤ d.get s := fun s => by cases s <;> decide
  refine ⟨weight, exact.mpr (.inl (by rw [weight]; decide)), bound, mono d more bound, ?_⟩
  exact found [] [issue .critical, issue .warning] 1 (by decide)

/-- With a full counter the score is the best one, where with a hundred issues it was the worst. -/
theorem scoreRisesAtFullCounter :
    let c : SeverityCounts := { info := 100 }
    let d : SeverityCounts := { info := 18446744073709551615 }
    qualityScore c = 0 ∧ (∀ s, c.get s ≤ d.get s) ∧ qualityScore d = 100 ∧
    (qualityScore d : Int) ≠ max 0 (100 - (20 * d.critical.toNat + 10 * d.error.toNat +
      3 * d.warning.toNat + d.info.toNat)) := by
  intro c d
  exact ⟨by decide, fun s => by cases s <;> decide, by decide, by decide⟩

end JavaAudit
