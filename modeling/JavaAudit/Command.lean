import JavaAudit.Analysis
import JavaAudit.CommandLine.Read
import JavaAudit.Report
import JavaAudit.Session
import JavaAudit.Settings.Load

/-! The two commands: the analysis of a project, and the making of a configuration file. -/
namespace JavaAudit

inductive Command where
  | analyze (arguments : Arguments)
  | init
  deriving Inhabited

inductive Plan where
  | report (arguments : Arguments) (settings : Settings) (result : AnalysisResult)
  | configuration
  deriving Inhabited

namespace Command

def ofArguments (a : Arguments) : Command := if a.init then init else analyze a

def name : Command → String
  | analyze _ => "analyze"
  | init => "init"

def exitCodeOf (e : AuditError) : Nat := if e.isCritical then 2 else 1

def explain (e : AuditError) : String :=
  e.severity.name ++ ": " ++ e.userMessage ++ "\n" ++
    match e.suggestion? with
    | some suggestion => "Suggestion: " ++ suggestion ++ "\n"
    | none => ""

def plan (parse : String → Source.Outcome) (w : World) : Command → Except AuditError Plan
  | analyze a => do
      let settings ← loadSettings w a
      let result ← (JavaAudit.analyze w.files settings {} parse).result
      pure (.report a settings result)
  | init => pure .configuration

def publish (a : Arguments) (settings : Settings) (result : AnalysisResult) : Run Nat := do
  Run.deliver settings.outputFile (Report.write settings result)
  match settings.outputFile with
  | some path => unless settings.quiet do Run.tellLine ("Report written to " ++ path)
  | none => pure ()
  match a.dot with
  | some path =>
      Run.writeFile path result.toDot
      unless settings.quiet do Run.tellLine ("Dependency graph written to " ++ path)
  | none => pure ()
  Run.tell (String.join (result.duplicateTypes.map fun d => d.notice.printed))
  pure (result.exitCode a.failUnder)

def configure : Run Nat := do
  let s ← get
  if s.files.exists? Config.fileName then
    Run.printLine ("Configuration file already exists at: " ++ Config.fileName)
    Run.printLine "To overwrite it, delete the file first and run this command again."
  else
    let files ← Run.ofExcept (Config.create s.files Config.fileName)
    set { s with files, written := Config.fileName :: s.written }
    Run.printLine ("Created default configuration file at: " ++ Config.fileName)
    Run.printLine "Every setting is commented out; uncomment a line to override its default."
  pure 0

def carryOut (time : Timing) : Plan → Run Nat
  | .report a settings result => publish a settings (result.timed time)
  | .configuration => configure

def finish (files : FileTree) (time : Timing) (plan : Except AuditError Plan) : Nat × Session :=
  match (Run.ofExcept plan >>= carryOut time).run { files } with
  | (.ok code, s) => (code, s)
  | (.error e, s) => (exitCodeOf e, { s with errors := s.errors ++ explain e })

def run (w : World) (time : Timing) (c : Command)
    (parse : String → Source.Outcome := Source.parse) : Nat × Session :=
  finish w.files time (plan parse w c)

end Command

end JavaAudit
