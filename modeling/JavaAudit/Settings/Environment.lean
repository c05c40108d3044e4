import JavaAudit.Error
import JavaAudit.Settings.Layer
import JavaAudit.Text.Blank
import JavaAudit.Text.Count

/-! A layer of settings from environment variables. The names of the variables begin with the name of
their family. -/
namespace JavaAudit

abbrev Variables := List (String × String)

def Variables.get? (vars : Variables) (name : String) : Option String :=
  (vars.find? (·.1 == name)).map Prod.snd

namespace Environment

def family : String := "CODEQUAL"

def keys : List String :=
  ["SCAN_PATH", "EXCLUDE", "EXCLUDED_DIRS", "MAX_DEPTH", "MIN_SEVERITY", "GOD_PACKAGE_THRESHOLD",
    "DEEP_PACKAGE_THRESHOLD", "ENTRY_POINT_SUFFIXES", "DEDUPE_CYCLES", "OUTPUT_FORMAT", "PARALLEL",
    "THREADS", "NO_COLOR"]

def variableName (family key : String) : String := family ++ "_" ++ key

def value? (vars : Variables) (family key : String) : Option String :=
  vars.get? (variableName family key)

def isAvailable (vars : Variables) (family : String) : Bool :=
  keys.any fun key => (value? vars family key).isSome

def parsed {α : Type} (read : String → Except String α) (vars : Variables) (family key : String) :
    Except AuditError (Option α) :=
  match value? vars family key with
  | none => .ok none
  | some raw => match read (Text.trim raw) with
      | .ok a => .ok (some a)
      | .error e =>
          .error (.config ("Invalid value '" ++ raw ++ "' for " ++ variableName family key ++ ": " ++ e))

def items (raw : String) : List String :=
  ((split ',' raw).map Text.trim).filter (!·.isEmpty)

def list (vars : Variables) (family key : String) : Option (List String) :=
  (value? vars family key).map items

def count (text : String) : Except String Nat :=
  (Text.readCount UInt64.size text).mapError Text.CountFault.message

end Environment

open Environment in
def Layer.ofVariables (vars : Variables) (family : String) : Except AuditError Layer := do
  let maxDepth ← parsed count vars family "MAX_DEPTH"
  let minSeverity ← parsed Severity.read vars family "MIN_SEVERITY"
  let godPackageThreshold ← parsed count vars family "GOD_PACKAGE_THRESHOLD"
  let deepPackageThreshold ← parsed count vars family "DEEP_PACKAGE_THRESHOLD"
  let dedupeCycles ← parsed Text.readFlag vars family "DEDUPE_CYCLES"
  let outputFormat ← parsed OutputFormat.read vars family "OUTPUT_FORMAT"
  let parallel ← parsed Text.readFlag vars family "PARALLEL"
  let threads ← parsed count vars family "THREADS"
  pure {
    scanPath := value? vars family "SCAN_PATH"
    excludePatterns := list vars family "EXCLUDE"
    excludedDirs := list vars family "EXCLUDED_DIRS"
    entryPointSuffixes := list vars family "ENTRY_POINT_SUFFIXES"
    maxDepth, minSeverity, godPackageThreshold, deepPackageThreshold, dedupeCycles, outputFormat
    parallel, threads
    useColors := if (value? vars family "NO_COLOR").isSome then some false else none }

end JavaAudit
