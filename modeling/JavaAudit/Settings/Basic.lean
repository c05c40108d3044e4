import JavaAudit.Detect
import JavaAudit.FileCheck

/-! The settings of a run and their defaults. -/
namespace JavaAudit

inductive OutputFormat where
  | text | json | csv
  deriving DecidableEq, Repr, Inhabited

namespace OutputFormat

def all : List OutputFormat := [text, json, csv]

def name : OutputFormat → String
  | text => "text"
  | json => "json"
  | csv => "csv"

def ofName? (name : String) : Option OutputFormat := all.find? (·.name == name)

/-- The format that a user means: letter case does not matter. The names are ASCII, and only ASCII
letters have their letters as small letters. -/
def read (name : String) : Except String OutputFormat :=
  match ofName? (String.ofList (name.toList.map Char.toLower)) with
  | some f => .ok f
  | none => .error ("Invalid output format: " ++ name)

end OutputFormat

structure Settings where
  scanPath : String := "."
  excludedDirs : List String :=
    ["build", "target", "node_modules", "out", "bin", ".git", ".idea", ".gradle"]
  testDirNames : List String := ["test", "tests"]
  excludePatterns : List String := []
  maxDepth : Option Nat := none
  followLinks : Bool := false
  minSeverity : Severity := .info
  godPackageThreshold : Nat := 15
  deepPackageThreshold : Nat := 6
  entryPointSuffixes : List String := ["Application", "Main", "Test"]
  dedupeCycles : Bool := false
  maxMethodComplexity : Nat := 10
  maxMethodLines : Nat := 50
  maxParameters : Nat := 5
  outputFormat : OutputFormat := .text
  outputFile : Option String := none
  parallel : Bool := true
  threads : Option Nat := none
  quiet : Bool := false
  verbose : Bool := false
  useColors : Bool := true
  showProgress : Bool := true
  deriving DecidableEq, Repr, Inhabited

namespace Settings

def detectors (s : Settings) : DetectorConfig :=
  ⟨s.godPackageThreshold, s.deepPackageThreshold, s.entryPointSuffixes, s.dedupeCycles⟩

def limits (s : Settings) : Limits := ⟨s.maxMethodComplexity, s.maxMethodLines, s.maxParameters⟩

end Settings

end JavaAudit
