import JavaAudit.CommandLine.Arguments
import JavaAudit.Settings.Document
import JavaAudit.Settings.Environment
import JavaAudit.Walk

/-! Where settings come from: a configuration file, environment variables and the command line, each
on top of the one before, and the check of what they come to. -/
namespace JavaAudit

structure World where
  files : FileTree
  vars : Variables
  deriving Inhabited

structure LayerSource where
  name : String
  priority : Nat
  isAvailable : Bool
  deriving DecidableEq, Repr, Inhabited

namespace Config

def fileName : String := ".codequal.toml"

def defaultContent : String :=
"# codequal configuration
#
# Every setting is optional; uncomment a line to override the built-in default.
# Environment variables (CODEQUAL_*) and command-line flags take precedence
# over this file.

# Project root to analyze
# scan_path = \".\"

# Directory names that are never descended into
# excluded_dirs = [\"build\", \"target\", \"node_modules\", \"out\", \"bin\", \".git\", \".idea\", \".gradle\"]

# Directory names holding test sources
# test_dir_names = [\"test\", \"tests\"]

# Extra glob patterns (relative to the root) to skip
# exclude_patterns = [\"**/generated/**\"]

# Maximum directory depth to traverse
# max_depth = 20

# follow_links = false

# Lowest severity shown in reports: INFO, WARNING, ERROR or CRITICAL
# min_severity = \"INFO\"

# Project checks
# god_package_threshold = 15
# deep_package_threshold = 6
# entry_point_suffixes = [\"Application\", \"Main\", \"Test\"]
# dedupe_cycles = false

# Per-method checks
# max_method_complexity = 10
# max_method_lines = 50
# max_parameters = 5

# Output: text, json or csv
# output_format = \"text\"
# output_file = \"codequal-report.txt\"

# parallel = true
# threads = 4

# quiet = false
# verbose = false
# use_colors = true
# show_progress = true
"

def home? (vars : Variables) : Option String := (vars.get? "HOME").filter (!·.isEmpty)

def userDirectory? (vars : Variables) : Option String :=
  ((vars.get? "XDG_CONFIG_HOME").filter Path.isAbsolute) <|>
    (home? vars).map (Path.join · ".config")

def defaultLocations (vars : Variables) : List String :=
  fileName :: ((home? vars).map (Path.join · fileName)).toList ++
    ((userDirectory? vars).map (Path.join · "codequal/config.toml")).toList

def read (files : FileTree) (path : String) : Except AuditError Layer := do
  if !files.exists? path then throw (.configNotFound path)
  let content ← (files.readText path).mapError (.configRead path)
  Layer.ofContent content path

def readNamed (files : FileTree) (path : String) : Except AuditError Layer :=
  if files.isFile path then read files path else .error (.configNotFound path)

def readFirst (files : FileTree) (locations : List String) : Except AuditError (Option Layer) :=
  match locations.find? files.isFile with
  | some path => (read files path).map some
  | none => .ok none

def create (files : FileTree) (path : String) : Except AuditError FileTree := do
  let files ← match Path.parent? path with
    | some above =>
        if above.isEmpty || files.exists? above then pure files
        else (files.makeDirectories (above.length + 1) above).mapError .io
    | none => pure files
  (files.writeText path defaultContent).mapError (.outputWrite path)

def defaultFileSource (files : FileTree) : LayerSource :=
  ⟨"default config file", 20, files.isFile fileName⟩

def fileSource (files : FileTree) (path : String) : LayerSource :=
  ⟨"config file (" ++ path ++ ")", 20, files.isFile path⟩

def variableSource (vars : Variables) (family : String) : LayerSource :=
  ⟨family ++ " environment variables", 15, Environment.isAvailable vars family⟩

def argumentSource : LayerSource := ⟨"command-line arguments", 30, true⟩

end Config

namespace Settings

def thresholds (s : Settings) : List (String × Nat) :=
  [("god_package_threshold", s.godPackageThreshold),
    ("deep_package_threshold", s.deepPackageThreshold),
    ("max_method_complexity", s.maxMethodComplexity),
    ("max_method_lines", s.maxMethodLines),
    ("max_parameters", s.maxParameters)]

def checkOutput (files : FileTree) (path : String) : Except AuditError Unit :=
  match Path.parent? path with
  | some above =>
      if above.isEmpty || files.isDirectory above then .ok ()
      else .error (.outputDirectoryNotFound above)
  | none => .ok ()

def check (files : FileTree) (s : Settings) : Except AuditError Unit := do
  if !files.exists? s.scanPath then throw (.invalidPath s.scanPath)
  let _ ← compilePatterns s.excludePatterns
  match s.thresholds.find? (·.2 = 0) with
  | some (name, _) => throw (.config (name ++ " must be at least 1"))
  | none => pure ()
  if s.maxDepth = some 0 then throw (.config "Max depth must be at least 1")
  if s.threads = some 0 then throw (.config "Thread count must be at least 1")
  if s.entryPointSuffixes.any String.isEmpty then
    throw (.config "Entry-point suffixes must not be empty")
  match s.outputFile with
  | some path => checkOutput files path
  | none => pure ()

def build (files : FileTree) (layers : List Layer) : Except AuditError Settings := do
  let s := (Layer.stack layers).toSettings
  check files s
  pure s

end Settings

def World.fileLayer (w : World) (a : Arguments) : Except AuditError Layer :=
  match a.config with
  | some path => Config.readNamed w.files path
  | none => (Config.readFirst w.files (Config.defaultLocations w.vars)).map (·.getD {})

def World.variableLayer (w : World) (family : String) : Except AuditError Layer :=
  if Environment.isAvailable w.vars family then Layer.ofVariables w.vars family
  else .ok {}

def loadSettings (w : World) (a : Arguments) (family : String := Environment.family) :
    Except AuditError Settings := do
  let file ← w.fileLayer a
  let given ← w.variableLayer family
  Settings.build w.files [file, given, a.toLayer]

end JavaAudit
