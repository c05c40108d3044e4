import JavaAudit.Glob
import JavaAudit.Issue
import JavaAudit.Toml.Problem

/-! What can go wrong in a run, how severe it is, and how it is told to the user. -/
namespace JavaAudit

structure IoFault where
  text : String
  denied : Bool := false
  deriving DecidableEq, Repr, Inhabited

namespace IoFault

def noEntry : IoFault := { text := "No such file or directory (os error 2)" }

def alreadyExists : IoFault := { text := "File exists (os error 17)" }

def notDirectory : IoFault := { text := "Not a directory (os error 20)" }

def isDirectory : IoFault := { text := "Is a directory (os error 21)" }

def tooManyLinks : IoFault := { text := "Too many levels of symbolic links (os error 40)" }

def notText : IoFault := { text := "stream did not contain valid UTF-8" }

end IoFault

inductive AuditError where
  | io (cause : IoFault)
  | sourceRead (path : String) (cause : IoFault)
  | config (message : String)
  | permissionDenied (path : String)
  | invalidPath (path : String)
  | rootUnreadable (path : String) (cause : IoFault)
  | tomlParse (message : String)
  | tomlSerialize (message : String)
  | csv (message : String)
  | globPattern (cause : Glob.PatternFault)
  | configNotFound (path : String)
  | configRead (path : String) (cause : IoFault)
  | configParse (path : String) (cause : Toml.Problem)
  | outputWrite (path : String) (cause : IoFault)
  | stdoutWrite (cause : IoFault)
  | outputDirectoryNotFound (path : String)
  | analysis (message : String)
  | directoryTraversal (path message : String)
  | parserSetup (message : String)
  | parallelExecution (message : String)
  | interrupted
  | jsonSerialize (message : String)
  | csvSerialize (message : String)
  deriving DecidableEq, Repr, Inhabited

namespace AuditError

def message : AuditError → String
  | io cause => "IO error: " ++ cause.text
  | sourceRead path cause => "Error reading source file " ++ path ++ ": " ++ cause.text
  | config message => "Configuration error: " ++ message
  | permissionDenied path => "Permission denied accessing " ++ path
  | invalidPath path => "Invalid path: " ++ path
  | rootUnreadable path cause => "Cannot read project root " ++ path ++ ": " ++ cause.text
  | tomlParse message => "TOML parsing error: " ++ message
  | tomlSerialize message => "TOML serialization error: " ++ message
  | csv message => "CSV error: " ++ message
  | globPattern cause => "Glob pattern error: " ++ cause.message
  | configNotFound path => "Configuration file not found at " ++ path
  | configRead path cause => "Error reading configuration file " ++ path ++ ": " ++ cause.text
  | configParse path cause => "Error parsing configuration file " ++ path ++ ": " ++ cause.message
  | outputWrite path cause => "Error writing to output file " ++ path ++ ": " ++ cause.text
  | stdoutWrite cause => "Error writing to stdout: " ++ cause.text
  | outputDirectoryNotFound path => "Output directory not found: " ++ path
  | analysis message => "Analysis error: " ++ message
  | directoryTraversal path message => "Directory traversal error for " ++ path ++ ": " ++ message
  | parserSetup message => "Parser setup error: " ++ message
  | parallelExecution message => "Parallel execution error: " ++ message
  | interrupted => "Operation interrupted"
  | jsonSerialize message => "JSON serialization error: " ++ message
  | csvSerialize message => "CSV serialization error: " ++ message

/-- A warning lets the run go on, an error ends what was being done, and a critical error ends the
run. -/
def severity : AuditError → Severity
  | permissionDenied _ | sourceRead .. | directoryTraversal .. => .warning
  | invalidPath _ | rootUnreadable .. | config _ | configNotFound _ | configRead ..
  | configParse .. | parserSetup _ | stdoutWrite _ | outputDirectoryNotFound _ => .critical
  | io _ | tomlParse _ | tomlSerialize _ | csv _ | globPattern _ | outputWrite .. | analysis _
  | parallelExecution _ | interrupted | jsonSerialize _ | csvSerialize _ => .error

def isCritical (e : AuditError) : Bool := e.severity == .critical

def userMessage : AuditError → String
  | permissionDenied path =>
      "Cannot access '" ++ path ++ "' due to permission denied. Check file permissions."
  | io cause => "File system error: " ++ cause.text ++ ". Check disk space and permissions."
  | invalidPath path =>
      "Invalid path: '" ++ path ++ "'. Please provide an existing project directory."
  | rootUnreadable path cause => "Cannot list project root '" ++ path ++ "': " ++ cause.text ++ "."
  | configNotFound path =>
      "Configuration file not found at '" ++ path ++
        "'. Create a config file or use command line options."
  | outputDirectoryNotFound path =>
      "Output directory '" ++ path ++
        "' does not exist. Please create the directory or specify a different output path."
  | interrupted => "Analysis was cancelled before it completed."
  | e => e.message

def suggestion? : AuditError → Option String
  | invalidPath _ | rootUnreadable .. => some "Check that the path exists and is accessible"
  | configNotFound _ =>
      some ("Create a .codequal.toml file in your project directory or specify a config file with " ++
        "--config")
  | permissionDenied _ => some "Check file permissions"
  | outputDirectoryNotFound _ =>
      some "Create the output directory first or specify a different path"
  | _ => none

def ofSource (path : String) (cause : IoFault) : AuditError :=
  if cause.denied then permissionDenied path else sourceRead path cause

end AuditError

end JavaAudit
