import JavaAudit.Settings.Basic

/-! Settings of which only some are given. Layers are put on top of each other, and in each field the
last layer that gives it wins. -/
namespace JavaAudit

structure Layer where
  scanPath : Option String := none
  excludedDirs : Option (List String) := none
  testDirNames : Option (List String) := none
  excludePatterns : Option (List String) := none
  maxDepth : Option Nat := none
  followLinks : Option Bool := none
  minSeverity : Option Severity := none
  godPackageThreshold : Option Nat := none
  deepPackageThreshold : Option Nat := none
  entryPointSuffixes : Option (List String) := none
  dedupeCycles : Option Bool := none
  maxMethodComplexity : Option Nat := none
  maxMethodLines : Option Nat := none
  maxParameters : Option Nat := none
  outputFormat : Option OutputFormat := none
  outputFile : Option String := none
  parallel : Option Bool := none
  threads : Option Nat := none
  quiet : Option Bool := none
  verbose : Option Bool := none
  useColors : Option Bool := none
  showProgress : Option Bool := none
  deriving DecidableEq, Repr, Inhabited

namespace Layer

def onto (upper lower : Layer) : Layer where
  scanPath := upper.scanPath <|> lower.scanPath
  excludedDirs := upper.excludedDirs <|> lower.excludedDirs
  testDirNames := upper.testDirNames <|> lower.testDirNames
  excludePatterns := upper.excludePatterns <|> lower.excludePatterns
  maxDepth := upper.maxDepth <|> lower.maxDepth
  followLinks := upper.followLinks <|> lower.followLinks
  minSeverity := upper.minSeverity <|> lower.minSeverity
  godPackageThreshold := upper.godPackageThreshold <|> lower.godPackageThreshold
  deepPackageThreshold := upper.deepPackageThreshold <|> lower.deepPackageThreshold
  entryPointSuffixes := upper.entryPointSuffixes <|> lower.entryPointSuffixes
  dedupeCycles := upper.dedupeCycles <|> lower.dedupeCycles
  maxMethodComplexity := upper.maxMethodComplexity <|> lower.maxMethodComplexity
  maxMethodLines := upper.maxMethodLines <|> lower.maxMethodLines
  maxParameters := upper.maxParameters <|> lower.maxParameters
  outputFormat := upper.outputFormat <|> lower.outputFormat
  outputFile := upper.outputFile <|> lower.outputFile
  parallel := upper.parallel <|> lower.parallel
  threads := upper.threads <|> lower.threads
  quiet := upper.quiet <|> lower.quiet
  verbose := upper.verbose <|> lower.verbose
  useColors := upper.useColors <|> lower.useColors
  showProgress := upper.showProgress <|> lower.showProgress

def applyTo (l : Layer) (s : Settings) : Settings where
  scanPath := l.scanPath.getD s.scanPath
  excludedDirs := l.excludedDirs.getD s.excludedDirs
  testDirNames := l.testDirNames.getD s.testDirNames
  excludePatterns := l.excludePatterns.getD s.excludePatterns
  maxDepth := l.maxDepth <|> s.maxDepth
  followLinks := l.followLinks.getD s.followLinks
  minSeverity := l.minSeverity.getD s.minSeverity
  godPackageThreshold := l.godPackageThreshold.getD s.godPackageThreshold
  deepPackageThreshold := l.deepPackageThreshold.getD s.deepPackageThreshold
  entryPointSuffixes := l.entryPointSuffixes.getD s.entryPointSuffixes
  dedupeCycles := l.dedupeCycles.getD s.dedupeCycles
  maxMethodComplexity := l.maxMethodComplexity.getD s.maxMethodComplexity
  maxMethodLines := l.maxMethodLines.getD s.maxMethodLines
  maxParameters := l.maxParameters.getD s.maxParameters
  outputFormat := l.outputFormat.getD s.outputFormat
  outputFile := l.outputFile <|> s.outputFile
  parallel := l.parallel.getD s.parallel
  threads := l.threads <|> s.threads
  quiet := l.quiet.getD s.quiet
  verbose := l.verbose.getD s.verbose
  useColors := l.useColors.getD s.useColors
  showProgress := l.showProgress.getD s.showProgress

def toSettings (l : Layer) : Settings := l.applyTo {}

def stack (layers : List Layer) : Layer := layers.foldl (fun lower upper => upper.onto lower) {}

end Layer

end JavaAudit
