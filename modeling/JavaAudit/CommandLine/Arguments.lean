import JavaAudit.Settings.Layer

/-! What a command line asks for, and the layer of settings that it gives. -/
namespace JavaAudit

structure Arguments where
  path : Option String := none
  exclude : List String := []
  excludeDirs : List String := []
  maxDepth : Option Nat := none
  followLinks : Bool := false
  output : Option OutputFormat := none
  outputFile : Option String := none
  minSeverity : Option Severity := none
  godPackageThreshold : Option Nat := none
  deepPackageThreshold : Option Nat := none
  entryPointSuffixes : List String := []
  dedupeCycles : Bool := false
  maxComplexity : Option Nat := none
  maxMethodLines : Option Nat := none
  maxParameters : Option Nat := none
  noParallel : Bool := false
  threads : Option Nat := none
  noColors : Bool := false
  noProgress : Bool := false
  quiet : Bool := false
  verbose : Bool := false
  config : Option String := none
  init : Bool := false
  failUnder : Option Nat := none
  dot : Option String := none
  deriving DecidableEq, Repr, Inhabited

namespace Arguments

def whenGiven {α : Type} (given : Bool) (a : α) : Option α := if given then some a else none

def unlessEmpty (names : List String) : Option (List String) :=
  if names.isEmpty then none else some names

/-- The directories that are left out by default, and behind them the new ones, each once. -/
def withDefaults (dirs : List String) : List String :=
  dirs.foldl (fun all dir => if all.contains dir then all else all ++ [dir])
    ({} : Settings).excludedDirs

def toLayer (a : Arguments) : Layer where
  scanPath := a.path
  excludePatterns := unlessEmpty a.exclude
  excludedDirs := (unlessEmpty a.excludeDirs).map withDefaults
  maxDepth := a.maxDepth
  followLinks := whenGiven a.followLinks true
  outputFormat := a.output
  outputFile := a.outputFile
  minSeverity := a.minSeverity
  godPackageThreshold := a.godPackageThreshold
  deepPackageThreshold := a.deepPackageThreshold
  entryPointSuffixes := unlessEmpty a.entryPointSuffixes
  dedupeCycles := whenGiven a.dedupeCycles true
  maxMethodComplexity := a.maxComplexity
  maxMethodLines := a.maxMethodLines
  maxParameters := a.maxParameters
  parallel := whenGiven a.noParallel false
  threads := a.threads
  useColors := whenGiven a.noColors false
  showProgress := whenGiven a.noProgress false
  quiet := whenGiven a.quiet true
  verbose := whenGiven a.verbose true

end Arguments

end JavaAudit
