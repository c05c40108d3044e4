import JavaAudit.Processing
import JavaAudit.SymbolTable

/-! What a run tells while it works. A bar that shows progress is drawn on a terminal only, so as text
just warnings and errors remain, however quiet the run is. -/
namespace JavaAudit

inductive Notice where
  | start (total : Nat) (operation : String)
  | update (progress : Progress)
  | finish (message : String)
  | warning (message : String)
  | error (message : String)
  deriving DecidableEq, Repr, Inhabited

def Notice.printed : Notice → String
  | start .. | update _ | finish _ => ""
  | warning message => "Warning: " ++ message ++ "\n"
  | error message => "Error: " ++ message ++ "\n"

def DuplicateType.notice (d : DuplicateType) : Notice :=
  .warning ("type " ++ d.fullName ++ " is declared in both " ++ d.replacedFile ++ " and " ++
    d.winningFile)

end JavaAudit
