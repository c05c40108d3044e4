import JavaAudit.Error
import JavaAudit.Files.Tree
import JavaAudit.Notice

/-! What a run has printed and written so far. A failure keeps it: what came before stays printed. -/
namespace JavaAudit

structure Session where
  files : FileTree
  output : String := ""
  errors : String := ""
  -- the last one first
  written : List String := []
  deriving Inhabited

abbrev Run := ExceptT AuditError (StateM Session)

namespace Run

def print (text : String) : Run Unit :=
  modify fun s => { s with output := s.output ++ text }

def printLine (text : String) : Run Unit := print (text ++ "\n")

def tell (text : String) : Run Unit :=
  modify fun s => { s with errors := s.errors ++ text }

def tellLine (text : String) : Run Unit := tell (text ++ "\n")

def ofExcept {α : Type} (e : Except AuditError α) : Run α := ExceptT.mk (pure e)

def writeFile (path content : String) : Run Unit := do
  let s ← get
  let files ← ofExcept ((s.files.writeText path content).mapError (.outputWrite path))
  set { s with files, written := path :: s.written }

def writeReport (path content : String) : Run Unit := do
  let s ← get
  match Path.parent? path with
  | some above =>
      if !above.isEmpty && !s.files.isDirectory above then throw (.outputDirectoryNotFound above)
  | none => pure ()
  writeFile path content

def deliver (path : Option String) (content : String) : Run Unit :=
  match path with
  | some path => writeReport path content
  | none => print content

end Run

end JavaAudit
