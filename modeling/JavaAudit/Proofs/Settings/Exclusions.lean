import JavaAudit.Proofs.Settings.Loading
import JavaAudit.Proofs.Walk

/-! Directories that the command line leaves out. They join the default ones; a list that a file or
a variable gives is replaced by both together. -/
namespace JavaAudit

theorem memAddEach {all dirs : List String} {dir : String} :
    dir ∈ dirs.foldl (fun all dir => if all.contains dir then all else all ++ [dir]) all ↔
      dir ∈ all ∨ dir ∈ dirs := by
  induction dirs generalizing all with
  | nil => simp
  | cons first dirs ih =>
    rw [List.foldl_cons, ih, List.mem_cons]
    by_cases known : first ∈ all
    · rw [if_pos (by simpa using known)]
      constructor
      · rintro (old | new)
        · exact .inl old
        · exact .inr (.inr new)
      · rintro (old | rfl | new)
        · exact .inl old
        · exact .inl known
        · exact .inr new
    · rw [if_neg (by simpa using known)]
      simp [or_assoc]

theorem memWithDefaults {dirs : List String} {dir : String} :
    dir ∈ Arguments.withDefaults dirs ↔ dir ∈ ({} : Settings).excludedDirs ∨ dir ∈ dirs :=
  memAddEach

theorem argumentsExcluding {a : Arguments} (filled : a.excludeDirs ≠ []) :
    a.toLayer = { { a with excludeDirs := [] }.toLayer with
      excludedDirs := some (Arguments.withDefaults a.excludeDirs) } := by
  simp [Arguments.toLayer, Arguments.unlessEmpty, filled]

theorem settingsExcluding (below : List Layer) (l : Layer) (dirs : List String) :
    (Layer.stack (below ++ [{ l with excludedDirs := some dirs }])).toSettings =
      { (Layer.stack (below ++ [l])).toSettings with excludedDirs := dirs } := by
  rw [Layer.stack, Layer.stack, List.foldl_append, List.foldl_append]
  -- Nothing is put on top of the last layer.
  rfl

theorem builtExcluding (files : FileTree) (below : List Layer) (l : Layer) (dirs : List String) :
    Settings.build files (below ++ [{ l with excludedDirs := some dirs }]) =
      (Settings.build files (below ++ [l])).map ({ · with excludedDirs := dirs }) := by
  unfold Settings.build
  rw [settingsExcluding]
  -- The check does not look at the directories.
  have checked : ∀ s : Settings,
      Settings.check files { s with excludedDirs := dirs } = Settings.check files s := fun _ => rfl
  simp only [checked]
  cases Settings.check files (Layer.stack (below ++ [l])).toSettings <;> rfl

theorem loadedExcluding {a : Arguments} (filled : a.excludeDirs ≠ []) (w : World)
    (family : String) :
    loadSettings w a family = (loadSettings w { a with excludeDirs := [] } family).map
      ({ · with excludedDirs := Arguments.withDefaults a.excludeDirs }) := by
  have layer := argumentsExcluding filled
  have built : ∀ file given, Settings.build w.files [file, given, a.toLayer] =
      (Settings.build w.files [file, given, { a with excludeDirs := [] }.toLayer]).map
        ({ · with excludedDirs := Arguments.withDefaults a.excludeDirs }) := by
    intro file given
    rw [layer]
    exact builtExcluding w.files [file, given] _ _
  have file : w.fileLayer { a with excludeDirs := [] } = w.fileLayer a := rfl
  rw [loadEq, loadEq, file]
  -- A layer that cannot be read stops both loads alike.
  cases w.fileLayer a with
  | error e => rfl
  | ok file =>
    cases Layer.ofVariables w.vars family with
    | error e => rfl
    | ok given => exact built file given

section Fewer

variable {r : WalkRules} {dirs : List String}

theorem prunesMore (more : ∀ dir ∈ r.excludedDirs, dir ∈ dirs) {names : List String} {name : String}
    (pruned : r.prunes names name = true) :
    { r with excludedDirs := dirs }.prunes names name = true := by
  simp only [WalkRules.prunes, Bool.or_eq_true, List.contains_iff_mem] at pruned ⊢
  rcases pruned with ((hidden | excluded) | test) | out
  · exact .inl (.inl (.inl hidden))
  · exact .inl (.inl (.inr (more name excluded)))
  · exact .inl (.inr test)
  · exact .inr out

mutual

theorem sightingsFewer (more : ∀ dir ∈ r.excludedDirs, dir ∈ dirs) {x : Sighting} :
    ∀ (l : Listing) (names : List String) (name : String),
      x ∈ sightings { r with excludedDirs := dirs } names name l → x ∈ sightings r names name l
  | .file, _, _ => id
  | .alias, _, _ => id
  | .broken _, _, _ => id
  | .loop _, _, _ => id
  | .directory children, names, name => by
    simp only [sightings, List.mem_ite_nil_left]
    rintro ⟨opened, seen⟩
    exact ⟨fun pruned => opened (prunesMore more pruned),
      childSightingsFewer more children names seen⟩

theorem childSightingsFewer (more : ∀ dir ∈ r.excludedDirs, dir ∈ dirs) {x : Sighting} :
    ∀ (children : List (String × Listing)) (parent : List String),
      x ∈ childSightings { r with excludedDirs := dirs } parent children →
        x ∈ childSightings r parent children
  | [], _ => id
  | (name, l) :: rest, parent => by
    simp only [childSightings, List.mem_append, List.mem_ite_nil_right]
    rintro (⟨reached, seen⟩ | seen)
    · exact .inl ⟨reached, sightingsFewer more l (parent ++ [name]) name seen⟩
    · exact .inr (childSightingsFewer more rest parent seen)

end

theorem filesFewer (more : ∀ dir ∈ r.excludedDirs, dir ∈ dirs) {root : String} {l : Listing}
    {path : List String} (found : path ∈ (l.walk { r with excludedDirs := dirs } root).files) :
    path ∈ (l.walk r root).files := by
  rw [Listing.memFiles] at found ⊢
  cases l with
  | directory children => exact childSightingsFewer more children [] found
  | _ => exact found

end Fewer

theorem rulesExcluding (s : Settings) (dirs : List String) :
    { s with excludedDirs := dirs }.walkRules =
      s.walkRules.map ({ · with excludedDirs := dirs }) := by
  unfold Settings.walkRules
  cases compilePatterns s.excludePatterns <;> rfl

theorem rulesDirs {s : Settings} {r : WalkRules} (rules : s.walkRules = .ok r) :
    r.excludedDirs = s.excludedDirs := by
  unfold Settings.walkRules at rules
  simp only [bindOk] at rules
  obtain ⟨globs, _, last⟩ := rules
  cases last
  rfl

theorem walkedIff {t : FileTree} {s : Settings} {outcome : WalkOutcome} :
    walk t s = .ok outcome ↔ ∃ r children, s.walkRules = .ok r ∧
      Listing.at? t s.followLinks s.scanPath = some (.directory children) ∧
      (Listing.directory children).walk r s.scanPath = outcome := by
  unfold walk
  simp only [bindOk]
  constructor
  · rintro ⟨r, rules, last⟩
    split at last
    · next children listed =>
      cases last
      exact ⟨r, children, rules, listed, rfl⟩
    · contradiction
  · rintro ⟨r, children, rules, listed, rfl⟩
    exact ⟨r, rules, by rw [listed]; rfl⟩

theorem walkFewer {t : FileTree} {s : Settings} {dirs : List String}
    (more : ∀ dir ∈ s.excludedDirs, dir ∈ dirs) {outcome : WalkOutcome}
    (walked : walk t { s with excludedDirs := dirs } = .ok outcome) :
    ∃ other, walk t s = .ok other ∧ ∀ path ∈ outcome.files, path ∈ other.files := by
  obtain ⟨r, children, rules, listed, rfl⟩ := walkedIff.mp walked
  rw [rulesExcluding] at rules
  cases plain : s.walkRules with
  | error e =>
    rw [plain] at rules
    contradiction
  | ok rest =>
    rw [plain] at rules
    cases rules
    refine ⟨_, walkedIff.mpr ⟨rest, children, plain, listed, rfl⟩, fun path found => ?_⟩
    exact filesFewer (rulesDirs plain ▸ more) found

theorem excludeDirsJoinDefaults {w : World} {a : Arguments} {family : String} {s : Settings}
    (filled : a.excludeDirs ≠ []) (loaded : loadSettings w a family = .ok s) :
    ∃ plain file given, loadSettings w { a with excludeDirs := [] } family = .ok plain ∧
      w.fileLayer a = .ok file ∧ Layer.ofVariables w.vars family = .ok given ∧
      plain.excludedDirs =
        (given.excludedDirs.or file.excludedDirs).getD ({} : Settings).excludedDirs ∧
      s = { plain with excludedDirs := s.excludedDirs } ∧
      (∀ dir, dir ∈ s.excludedDirs ↔
        dir ∈ ({} : Settings).excludedDirs ∨ dir ∈ a.excludeDirs) ∧
      ((∀ dir ∈ plain.excludedDirs, dir ∈ s.excludedDirs) ↔
        ∀ dirs, given.excludedDirs.or file.excludedDirs = some dirs → ∀ dir ∈ dirs,
          dir ∈ ({} : Settings).excludedDirs ∨ dir ∈ a.excludeDirs) ∧
      ((∀ dir ∈ plain.excludedDirs, dir ∈ s.excludedDirs) →
        (∀ before after, plain.walkRules = .ok before → s.walkRules = .ok after →
          ∀ names name, before.prunes names name = true → after.prunes names name = true) ∧
        ∀ t outcome, walk t s = .ok outcome → ∃ other, walk t plain = .ok other ∧
          ∀ path ∈ outcome.files, path ∈ other.files) := by
  rw [loadedExcluding filled] at loaded
  cases without : loadSettings w { a with excludeDirs := [] } family with
  | error e =>
    rw [without] at loaded
    contradiction
  | ok plain =>
    rw [without] at loaded
    cases loaded
    obtain ⟨file, given, fileRead, variablesRead, built⟩ := loadedIff.mp without
    have configured : plain.excludedDirs =
        (given.excludedDirs.or file.excludedDirs).getD ({} : Settings).excludedDirs := by
      obtain ⟨rfl, _⟩ := builtIff.mp built
      apply Option.some.inj
      calc
        _ = given.excludedDirs.or (file.excludedDirs.or (some ({} : Settings).excludedDirs)) :=
          Layer.threeLayersValue file given { a with excludeDirs := [] }.toLayer .excludedDirs
        _ = _ := by rw [← Option.or_assoc, Option.or_some]
    refine ⟨plain, file, given, rfl, fileRead, variablesRead, configured, rfl,
      fun dir => memWithDefaults, ?_, fun more => ⟨?_, fun t outcome => walkFewer more⟩⟩
    · rw [configured]
      cases given.excludedDirs.or file.excludedDirs with
      | none => simp [memWithDefaults]
      | some dirs => simp [memWithDefaults]
    · intro before after rules other names name pruned
      rw [rulesExcluding, rules] at other
      cases other
      exact prunesMore (rulesDirs rules ▸ more) pruned

theorem excludeDirsJoinDefaultsListed :
    let w : World := ⟨⟨.directory [], []⟩, [("CODEQUAL_EXCLUDED_DIRS", "gen, build")]⟩
    let a : Arguments := { excludeDirs := ["gen", "lib"] }
    let s : Settings := { excludedDirs := ({} : Settings).excludedDirs ++ ["gen", "lib"] }
    loadSettings w a = .ok s ∧
    ∃ plain, loadSettings w { a with excludeDirs := [] } = .ok plain ∧
      plain.excludedDirs = ["gen", "build"] ∧ (∀ dir ∈ plain.excludedDirs, dir ∈ s.excludedDirs) ∧
      ∀ t outcome, walk t s = .ok outcome → ∃ other, walk t plain = .ok other ∧
        ∀ path ∈ outcome.files, path ∈ other.files := by
  intro w a s
  have loaded : loadSettings w a = .ok s := okOfToOption (by decide +kernel)
  obtain ⟨plain, file, given, without, fileRead, variablesRead, configured, _, _, listed, fewer⟩ :=
    excludeDirsJoinDefaults (by decide) loaded
  have fileLayer : w.fileLayer a = .ok {} := okOfToOption (by decide +kernel)
  have variableLayer : Layer.ofVariables w.vars Environment.family =
      .ok { excludedDirs := some ["gen", "build"] } := okOfToOption (by decide +kernel)
  cases fileRead.symm.trans fileLayer
  cases variablesRead.symm.trans variableLayer
  have more : ∀ dir ∈ plain.excludedDirs, dir ∈ s.excludedDirs := by
    refine listed.mpr fun dirs same => ?_
    cases same
    decide
  exact ⟨loaded, plain, without, configured, more, (fewer more).2⟩

/-- A directory that the configuration leaves out is entered when another one is left out too. -/
theorem excludeDirOpensConfigured :
    let content := "excluded_dirs = [\"vendor\"]\n".toList.map fun c => c.toNat.toUInt8
    let w : World := ⟨⟨.directory [(".codequal.toml", .file content),
      ("vendor", .directory [("A.java", .file [])])], []⟩, []⟩
    let a : Arguments := { excludeDirs := ["gen"] }
    ∃ plain s, loadSettings w { a with excludeDirs := [] } = .ok plain ∧
      loadSettings w a = .ok s ∧ "vendor" ∈ plain.excludedDirs ∧ "vendor" ∉ s.excludedDirs ∧
      walk w.files plain = .ok ⟨[], []⟩ ∧ walk w.files s = .ok ⟨[["vendor", "A.java"]], []⟩ := by
  intro content w a
  exact ⟨{ excludedDirs := ["vendor"] },
    { excludedDirs := ({} : Settings).excludedDirs ++ ["gen"] },
    okOfToOption (by decide +kernel), okOfToOption (by decide +kernel), by decide, by decide,
    okOfToOption (by decide +kernel), okOfToOption (by decide +kernel)⟩

end JavaAudit
