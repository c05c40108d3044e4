import JavaAudit.Settings.Load
import JavaAudit.Proofs.Settings.Layers

/-! The layers of a run: a configuration file, the variables of a family above it, and the command
line on top. A source that is passed over because it is not there gives nothing anyway. -/
namespace JavaAudit

theorem bindOk {ε α β : Type} {x : Except ε α} {f : α → Except ε β} {b : β} :
    (x >>= f) = .ok b ↔ ∃ a, x = .ok a ∧ f a = .ok b := by
  cases x with
  | error e => simp [bind, Except.bind]
  | ok a => simp [bind, Except.bind]

theorem okOfToOption {ε α : Type} {x : Except ε α} {a : α} (found : x.toOption = some a) :
    x = .ok a := by
  cases x with
  | error e => contradiction
  | ok b => exact congrArg Except.ok (Option.some.inj found)

namespace Environment

def keyOf? : Setting → Option String
  | .scanPath => "SCAN_PATH"
  | .excludePatterns => "EXCLUDE"
  | .excludedDirs => "EXCLUDED_DIRS"
  | .maxDepth => "MAX_DEPTH"
  | .minSeverity => "MIN_SEVERITY"
  | .godPackageThreshold => "GOD_PACKAGE_THRESHOLD"
  | .deepPackageThreshold => "DEEP_PACKAGE_THRESHOLD"
  | .entryPointSuffixes => "ENTRY_POINT_SUFFIXES"
  | .dedupeCycles => "DEDUPE_CYCLES"
  | .outputFormat => "OUTPUT_FORMAT"
  | .parallel => "PARALLEL"
  | .threads => "THREADS"
  | .useColors => "NO_COLOR"
  | _ => none

theorem keyIff {key : String} : key ∈ keys ↔ ∃ name, keyOf? name = some key := by
  constructor
  · intro mem
    have settings : keys = [.scanPath, .excludePatterns, .excludedDirs, .maxDepth, .minSeverity,
        .godPackageThreshold, .deepPackageThreshold, .entryPointSuffixes, .dedupeCycles,
        .outputFormat, .parallel, .threads, .useColors].filterMap keyOf? := rfl
    rw [settings] at mem
    obtain ⟨name, _, gives⟩ := List.mem_filterMap.mp mem
    exact ⟨name, gives⟩
  · rintro ⟨name, gives⟩
    cases name <;> cases gives <;> decide

section Family

variable {vars : Variables} {family key : String} {α : Type} {read : String → Except String α}

theorem parsedGiven {given : Option α} (ok : parsed read vars family key = .ok given) :
    given.isSome = (value? vars family key).isSome := by
  unfold parsed at ok
  cases raw : value? vars family key with
  | none =>
    simp only [raw] at ok
    cases ok
    rfl
  | some text =>
    simp only [raw] at ok
    split at ok
    · cases ok
      rfl
    · contradiction

theorem unsetKey (unset : isAvailable vars family = false) (mem : key ∈ keys) :
    value? vars family key = none := by
  unfold isAvailable at unset
  have absent := List.any_eq_false.mp unset key mem
  simpa using absent

end Family

end Environment

open Environment

section Variables

variable {vars : Variables} {family : String}

theorem variablesUnset (unset : isAvailable vars family = false) :
    Layer.ofVariables vars family = .ok {} := by
  have absent : ∀ key ∈ keys, value? vars family key = none := fun _ => unsetKey unset
  simp only [keys, List.forall_mem_cons] at absent
  simp only [Layer.ofVariables, parsed, list, absent]
  rfl

theorem variablesGive {given : Layer} (ok : Layer.ofVariables vars family = .ok given)
    (name : Setting) :
    (given.valueOf? name).isSome = ((keyOf? name).bind (value? vars family)).isSome := by
  unfold Layer.ofVariables at ok
  simp only [bindOk] at ok
  obtain ⟨maxDepth, depthRead, minSeverity, severityRead, god, godRead, deep, deepRead, dedupe,
    dedupeRead, format, formatRead, parallel, parallelRead, threads, threadsRead, last⟩ := ok
  cases last
  cases name
  case maxDepth => exact parsedGiven depthRead
  case minSeverity => exact parsedGiven severityRead
  case godPackageThreshold => exact parsedGiven godRead
  case deepPackageThreshold => exact parsedGiven deepRead
  case dedupeCycles => exact parsedGiven dedupeRead
  case outputFormat => exact parsedGiven formatRead
  case parallel => exact parsedGiven parallelRead
  case threads => exact parsedGiven threadsRead
  case excludedDirs | excludePatterns | entryPointSuffixes => exact Option.isSome_map
  case useColors =>
    simp only [Layer.valueOf?, keyOf?, Option.bind_some]
    cases value? vars family "NO_COLOR" <;> rfl
  all_goals rfl

end Variables

def Arguments.given? (a : Arguments) : (name : Setting) → Option name.Value
  | .scanPath => a.path
  | .excludedDirs => if a.excludeDirs = [] then none else some (withDefaults a.excludeDirs)
  | .testDirNames => none
  | .excludePatterns => if a.exclude = [] then none else some a.exclude
  | .maxDepth => a.maxDepth
  | .followLinks => if a.followLinks then some true else none
  | .minSeverity => a.minSeverity
  | .godPackageThreshold => a.godPackageThreshold
  | .deepPackageThreshold => a.deepPackageThreshold
  | .entryPointSuffixes => if a.entryPointSuffixes = [] then none else some a.entryPointSuffixes
  | .dedupeCycles => if a.dedupeCycles then some true else none
  | .maxMethodComplexity => a.maxComplexity
  | .maxMethodLines => a.maxMethodLines
  | .maxParameters => a.maxParameters
  | .outputFormat => a.output
  | .outputFile => a.outputFile
  | .parallel => if a.noParallel then some false else none
  | .threads => a.threads
  | .quiet => if a.quiet then some true else none
  | .verbose => if a.verbose then some true else none
  | .useColors => if a.noColors then some false else none
  | .showProgress => if a.noProgress then some false else none

theorem argumentsGive (a : Arguments) (name : Setting) : a.toLayer.valueOf? name = a.given? name := by
  cases name
  case excludedDirs | excludePatterns | entryPointSuffixes =>
    simp only [Layer.valueOf?, Arguments.toLayer, Arguments.unlessEmpty, Arguments.given?,
      List.isEmpty_iff]
    split <;> rfl
  all_goals rfl

theorem World.variableLayerEq (w : World) (family : String) :
    w.variableLayer family = Layer.ofVariables w.vars family := by
  unfold variableLayer
  split
  · rfl
  · next unset => exact (variablesUnset (by simpa using unset)).symm

theorem World.fileLayerAbsent {w : World} {a : Arguments} (unnamed : a.config = none)
    (absent : ∀ path ∈ Config.defaultLocations w.vars, w.files.isFile path = false) :
    w.fileLayer a = .ok {} := by
  have unfound : (Config.defaultLocations w.vars).find? w.files.isFile = none := by
    rw [List.find?_eq_none]
    intro path mem
    simp [absent path mem]
  simp only [fileLayer, unnamed, Config.readFirst, unfound]
  rfl

theorem stackSkips (below above : List Layer) :
    Layer.stack (below ++ {} :: above) = Layer.stack (below ++ above) :=
  Layer.eqOfValues fun name => by simp [Layer.stackValue, Layer.lastGiven]

theorem Settings.buildSkips (files : FileTree) (below above : List Layer) :
    Settings.build files (below ++ {} :: above) = Settings.build files (below ++ above) := by
  unfold Settings.build
  rw [stackSkips]

theorem loadEq (w : World) (a : Arguments) (family : String) :
    loadSettings w a family = (do
      let file ← w.fileLayer a
      let given ← Layer.ofVariables w.vars family
      Settings.build w.files [file, given, a.toLayer]) := by
  unfold loadSettings
  rw [w.variableLayerEq]

theorem loadedIff {w : World} {a : Arguments} {family : String} {s : Settings} :
    loadSettings w a family = .ok s ↔ ∃ file given, w.fileLayer a = .ok file ∧
      Layer.ofVariables w.vars family = .ok given ∧
      Settings.build w.files [file, given, a.toLayer] = .ok s := by
  rw [loadEq]
  simp only [bindOk]
  constructor
  · rintro ⟨file, fileRead, given, variablesRead, built⟩
    exact ⟨file, given, fileRead, variablesRead, built⟩
  · rintro ⟨file, given, fileRead, variablesRead, built⟩
    exact ⟨file, fileRead, given, variablesRead, built⟩

theorem builtIff {files : FileTree} {layers : List Layer} {s : Settings} :
    Settings.build files layers = .ok s ↔
      s = (Layer.stack layers).toSettings ∧ Settings.check files s = .ok () := by
  unfold Settings.build
  simp only [bindOk]
  constructor
  · rintro ⟨_, checked, last⟩
    cases last
    exact ⟨rfl, checked⟩
  · rintro ⟨rfl, checked⟩
    exact ⟨(), checked, rfl⟩

theorem Layer.toSettingsValue (layers : List Layer) (name : Setting) :
    (stack layers).toSettings.valueOf? name =
      (lastGiven layers name).or (({} : Settings).valueOf? name) := by
  rw [toSettings, applyValue, stackValue]

theorem Layer.threeLayersValue (file given top : Layer) (name : Setting) :
    (stack [file, given, top]).toSettings.valueOf? name =
      (top.valueOf? name).or ((given.valueOf? name).or
        ((file.valueOf? name).or (({} : Settings).valueOf? name))) := by
  rw [toSettingsValue, lastGivenCons, lastGivenCons, lastGivenCons]
  simp [lastGiven, Option.or_assoc]

theorem lastGivenSettingWins (w : World) (a : Arguments) (family : String) :
    ((∀ top middle bottom : Layer,
        (top.onto middle).onto bottom = top.onto (middle.onto bottom)) ∧
      ∀ l : Layer, l.onto {} = l ∧ ({} : Layer).onto l = l) ∧
    (∀ layers name, (Layer.stack layers).toSettings.valueOf? name =
      ((layers.filterMap (Layer.valueOf? · name)).getLast?).or (({} : Settings).valueOf? name)) ∧
    (∀ s, loadSettings w a family = .ok s → ∃ file given, w.fileLayer a = .ok file ∧
      Layer.ofVariables w.vars family = .ok given ∧
      ∀ t : Settings, t = s ↔ ∀ name, t.valueOf? name =
        (a.toLayer.valueOf? name).or ((given.valueOf? name).or
          ((file.valueOf? name).or (({} : Settings).valueOf? name)))) ∧
    ((∀ given, Layer.ofVariables w.vars family = .ok given → ∀ name,
        (given.valueOf? name).isSome = ((keyOf? name).bind (value? w.vars family)).isSome) ∧
      ∀ key, key ∈ keys ↔ ∃ name, keyOf? name = some key) ∧
    (∀ name, a.toLayer.valueOf? name = a.given? name) ∧
    (loadSettings w a family = (do
      let file ← w.fileLayer a
      let given ← Layer.ofVariables w.vars family
      Settings.build w.files [file, given, a.toLayer])) ∧
    (isAvailable w.vars family = false → Layer.ofVariables w.vars family = .ok {} ∧
      loadSettings w a family = (do
        let file ← w.fileLayer a
        Settings.build w.files [file, a.toLayer])) ∧
    (a.config = none →
      (∀ path ∈ Config.defaultLocations w.vars, w.files.isFile path = false) →
      loadSettings w a family = (do
        let given ← Layer.ofVariables w.vars family
        Settings.build w.files [given, a.toLayer])) := by
  refine ⟨⟨Layer.ontoAssoc, fun l => ⟨l.ontoEmpty, l.emptyOnto⟩⟩, Layer.toSettingsValue, ?_,
    ⟨fun _ => variablesGive, fun _ => keyIff⟩, argumentsGive a, loadEq w a family, fun unset => ?_,
    fun unnamed absent => ?_⟩
  · intro s loaded
    obtain ⟨file, given, fileRead, variablesRead, built⟩ := loadedIff.mp loaded
    obtain ⟨rfl, _⟩ := builtIff.mp built
    refine ⟨file, given, fileRead, variablesRead, fun t => ?_⟩
    have values := Layer.threeLayersValue file given a.toLayer
    constructor
    · rintro rfl
      exact values
    · intro same
      exact Settings.eqOfValues fun name => (same name).trans (values name).symm
  · have nothing : Layer.ofVariables w.vars family = .ok {} := variablesUnset unset
    refine ⟨nothing, ?_⟩
    rw [loadEq, nothing]
    exact congrArg (w.fileLayer a >>= ·)
      (funext fun file => Settings.buildSkips w.files [file] [a.toLayer])
  · rw [loadEq, World.fileLayerAbsent unnamed absent]
    exact congrArg (Layer.ofVariables w.vars family >>= ·)
      (funext fun given => Settings.buildSkips w.files [] [given, a.toLayer])

theorem lastGivenSettingWinsFourSources :
    let content := "max_parameters = 7\n".toList.map fun c => c.toNat.toUInt8
    let w : World := ⟨⟨.directory [(".codequal.toml", .file content)], []⟩,
      [("CODEQUAL_DEEP_PACKAGE_THRESHOLD", " 9"), ("CODEQUAL_GOD_PACKAGE_THRESHOLD", "40")]⟩
    let a : Arguments := { godPackageThreshold := some 30 }
    let s : Settings := { godPackageThreshold := 30, deepPackageThreshold := 9, maxParameters := 7 }
    loadSettings w a = .ok s ∧ isAvailable w.vars "AUDIT" = false ∧
    Layer.ofVariables w.vars "AUDIT" = .ok {} ∧
    ∃ file given, w.fileLayer a = .ok file ∧ Layer.ofVariables w.vars family = .ok given ∧
      file.maxParameters = some 7 ∧ given.godPackageThreshold = some 40 ∧
      s.valueOf? .godPackageThreshold = (a.toLayer.valueOf? .godPackageThreshold).or
        ((given.valueOf? .godPackageThreshold).or ((file.valueOf? .godPackageThreshold).or
          (({} : Settings).valueOf? .godPackageThreshold))) := by
  intro content w a s
  have loaded : loadSettings w a = .ok s := okOfToOption (by decide +kernel)
  have unset : isAvailable w.vars "AUDIT" = false := by decide +kernel
  obtain ⟨_, _, values, _⟩ := lastGivenSettingWins w a family
  obtain ⟨_, _, _, _, _, _, unavailable, _⟩ := lastGivenSettingWins w a "AUDIT"
  obtain ⟨file, given, fileRead, variablesRead, exactly⟩ := values s loaded
  have fileLayer : w.fileLayer a = .ok { maxParameters := some 7 } :=
    okOfToOption (by decide +kernel)
  have variableLayer : Layer.ofVariables w.vars family =
      .ok { deepPackageThreshold := some 9, godPackageThreshold := some 40 } :=
    okOfToOption (by decide +kernel)
  cases fileRead.symm.trans fileLayer
  cases variablesRead.symm.trans variableLayer
  exact ⟨loaded, unset, (unavailable unset).1, _, _, fileRead, variablesRead, rfl, rfl,
    (exactly s).mp rfl .godPackageThreshold⟩

end JavaAudit
