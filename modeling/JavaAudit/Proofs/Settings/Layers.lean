import JavaAudit.Settings.Layer

/-! Settings one by one. In each setting a stack of layers has the value of the last layer that
gives it, whatever the layers say of the other settings. -/
namespace JavaAudit

inductive Setting where
  | scanPath | excludedDirs | testDirNames | excludePatterns | maxDepth | followLinks | minSeverity
  | godPackageThreshold | deepPackageThreshold | entryPointSuffixes | dedupeCycles
  | maxMethodComplexity | maxMethodLines | maxParameters | outputFormat | outputFile | parallel
  | threads | quiet | verbose | useColors | showProgress
  deriving DecidableEq

def Setting.Value : Setting → Type
  | scanPath | outputFile => String
  | excludedDirs | testDirNames | excludePatterns | entryPointSuffixes => List String
  | maxDepth | threads | godPackageThreshold | deepPackageThreshold | maxMethodComplexity
  | maxMethodLines | maxParameters => Nat
  | followLinks | dedupeCycles | parallel | quiet | verbose | useColors | showProgress => Bool
  | minSeverity => Severity
  | outputFormat => OutputFormat

namespace Layer

def valueOf? (l : Layer) : (name : Setting) → Option name.Value
  | .scanPath => l.scanPath
  | .excludedDirs => l.excludedDirs
  | .testDirNames => l.testDirNames
  | .excludePatterns => l.excludePatterns
  | .maxDepth => l.maxDepth
  | .followLinks => l.followLinks
  | .minSeverity => l.minSeverity
  | .godPackageThreshold => l.godPackageThreshold
  | .deepPackageThreshold => l.deepPackageThreshold
  | .entryPointSuffixes => l.entryPointSuffixes
  | .dedupeCycles => l.dedupeCycles
  | .maxMethodComplexity => l.maxMethodComplexity
  | .maxMethodLines => l.maxMethodLines
  | .maxParameters => l.maxParameters
  | .outputFormat => l.outputFormat
  | .outputFile => l.outputFile
  | .parallel => l.parallel
  | .threads => l.threads
  | .quiet => l.quiet
  | .verbose => l.verbose
  | .useColors => l.useColors
  | .showProgress => l.showProgress

theorem eqOfValues {l m : Layer} (same : ∀ name, l.valueOf? name = m.valueOf? name) : l = m := by
  obtain ⟨⟩ := l
  obtain ⟨⟩ := m
  simp only [mk.injEq]
  refine ⟨same .scanPath, same .excludedDirs, same .testDirNames, same .excludePatterns,
    same .maxDepth, same .followLinks, same .minSeverity, same .godPackageThreshold,
    same .deepPackageThreshold, same .entryPointSuffixes, same .dedupeCycles,
    same .maxMethodComplexity, same .maxMethodLines, same .maxParameters, same .outputFormat,
    same .outputFile, same .parallel, same .threads, same .quiet, same .verbose, same .useColors,
    same .showProgress⟩

@[simp] theorem emptyValue (name : Setting) : ({} : Layer).valueOf? name = none := by
  cases name <;> rfl

@[simp] theorem ontoValue (upper lower : Layer) (name : Setting) :
    (upper.onto lower).valueOf? name = (upper.valueOf? name).or (lower.valueOf? name) := by
  cases name <;> exact Option.orElse_eq_or

theorem ontoAssoc (top middle bottom : Layer) :
    (top.onto middle).onto bottom = top.onto (middle.onto bottom) :=
  eqOfValues fun name => by simp [Option.or_assoc]

theorem ontoEmpty (l : Layer) : l.onto {} = l :=
  eqOfValues fun name => by simp

theorem emptyOnto (l : Layer) : ({} : Layer).onto l = l :=
  eqOfValues fun name => by simp

def lastGiven (layers : List Layer) (name : Setting) : Option name.Value :=
  (layers.filterMap (valueOf? · name)).getLast?

theorem lastGivenCons (l : Layer) (layers : List Layer) (name : Setting) :
    lastGiven (l :: layers) name = (lastGiven layers name).or (l.valueOf? name) := by
  unfold lastGiven
  cases given : l.valueOf? name with
  | none => simp [given]
  | some value =>
    simp only [List.filterMap_cons, given, List.getLast?_cons]
    cases (layers.filterMap (valueOf? · name)).getLast? <;> rfl

theorem foldValue (bottom : Layer) (layers : List Layer) (name : Setting) :
    (layers.foldl (fun lower upper => upper.onto lower) bottom).valueOf? name =
      (lastGiven layers name).or (bottom.valueOf? name) := by
  induction layers generalizing bottom with
  | nil => rfl
  | cons l layers ih =>
    rw [List.foldl_cons, ih, ontoValue, lastGivenCons, Option.or_assoc]

theorem stackValue (layers : List Layer) (name : Setting) :
    (stack layers).valueOf? name = lastGiven layers name := by
  rw [stack, foldValue, emptyValue, Option.or_none]

end Layer

namespace Settings

def valueOf? (s : Settings) : (name : Setting) → Option name.Value
  | .scanPath => some s.scanPath
  | .excludedDirs => some s.excludedDirs
  | .testDirNames => some s.testDirNames
  | .excludePatterns => some s.excludePatterns
  | .maxDepth => s.maxDepth
  | .followLinks => some s.followLinks
  | .minSeverity => some s.minSeverity
  | .godPackageThreshold => some s.godPackageThreshold
  | .deepPackageThreshold => some s.deepPackageThreshold
  | .entryPointSuffixes => some s.entryPointSuffixes
  | .dedupeCycles => some s.dedupeCycles
  | .maxMethodComplexity => some s.maxMethodComplexity
  | .maxMethodLines => some s.maxMethodLines
  | .maxParameters => some s.maxParameters
  | .outputFormat => some s.outputFormat
  | .outputFile => s.outputFile
  | .parallel => some s.parallel
  | .threads => s.threads
  | .quiet => some s.quiet
  | .verbose => some s.verbose
  | .useColors => some s.useColors
  | .showProgress => some s.showProgress

theorem eqOfValues {s t : Settings} (same : ∀ name, s.valueOf? name = t.valueOf? name) : s = t := by
  obtain ⟨⟩ := s
  obtain ⟨⟩ := t
  simp only [mk.injEq]
  exact ⟨Option.some.inj (same .scanPath), Option.some.inj (same .excludedDirs),
    Option.some.inj (same .testDirNames), Option.some.inj (same .excludePatterns), same .maxDepth,
    Option.some.inj (same .followLinks), Option.some.inj (same .minSeverity),
    Option.some.inj (same .godPackageThreshold), Option.some.inj (same .deepPackageThreshold),
    Option.some.inj (same .entryPointSuffixes), Option.some.inj (same .dedupeCycles),
    Option.some.inj (same .maxMethodComplexity), Option.some.inj (same .maxMethodLines),
    Option.some.inj (same .maxParameters), Option.some.inj (same .outputFormat), same .outputFile,
    Option.some.inj (same .parallel), same .threads, Option.some.inj (same .quiet),
    Option.some.inj (same .verbose), Option.some.inj (same .useColors),
    Option.some.inj (same .showProgress)⟩

end Settings

theorem Layer.applyValue (l : Layer) (s : Settings) (name : Setting) :
    (l.applyTo s).valueOf? name = (l.valueOf? name).or (s.valueOf? name) := by
  cases name
  case maxDepth | outputFile | threads => exact Option.orElse_eq_or
  all_goals exact Option.or_some.symm

end JavaAudit
