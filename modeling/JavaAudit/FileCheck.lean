import JavaAudit.Facts.Basic
import JavaAudit.Issue
import JavaAudit.Text.Capital

/-! The checks of a single file. Issues come by line; on one line methods come first, then empty
catch blocks, then type names. -/
namespace JavaAudit

structure Limits where
  complexity : Nat := 10
  lines : Nat := 50
  parameters : Nat := 5
  deriving DecidableEq, Repr, Inhabited

namespace FileCheck

def label (m : MethodFacts) : String :=
  if m.isConstructor then "Constructor of '" ++ m.owner ++ "'"
  else "Method '" ++ m.owner ++ "." ++ m.name ++ "'"

def limited (what : String) (limit : Nat) : String := what ++ " (limit " ++ toString limit ++ ")"

def highComplexity (l : Limits) (m : MethodFacts) : FileIssue where
  severity := .warning
  code := .highComplexity
  message := limited (label m ++ " has cyclomatic complexity " ++ toString m.complexity) l.complexity
  suggestion := "Extract branches into smaller methods"
  line := m.lineStart

def longMethod (l : Limits) (m : MethodFacts) : FileIssue where
  severity := .info
  code := .longMethod
  message := limited (label m ++ " spans " ++ toString m.lineCount ++ " lines") l.lines
  suggestion := "Split the method into well-named helpers"
  line := m.lineStart

def tooManyParameters (l : Limits) (m : MethodFacts) : FileIssue where
  severity := .info
  code := .tooManyParameters
  message := limited (label m ++ " takes " ++ toString m.parameterCount ++ " parameters") l.parameters
  suggestion := "Group related parameters into a parameter object"
  line := m.lineStart

def emptyCatch (line : Nat) : FileIssue where
  severity := .warning
  code := .emptyCatchBlock
  message := "Exception is caught and silently ignored"
  suggestion := "Handle the exception, log it, or rethrow it"
  line := line

def typeNaming (t : TypeInfo) : FileIssue where
  severity := .info
  code := .typeNaming
  message := "Type name '" ++ t.simpleName ++ "' does not start with an upper-case letter"
  suggestion := "Use UpperCamelCase for type names"
  line := t.line

def isCapitalized (name : String) : Bool := name.toList.head?.any Text.isCapital

def methodIssues (l : Limits) (m : MethodFacts) : List FileIssue :=
  (if l.complexity < m.complexity then [highComplexity l m] else []) ++
    (if l.lines < m.lineCount then [longMethod l m] else []) ++
    (if l.parameters < m.parameterCount then [tooManyParameters l m] else [])

def found (l : Limits) (f : FileFacts) : List FileIssue :=
  f.methods.flatMap (methodIssues l) ++ f.emptyCatchLines.map emptyCatch ++
    (f.types.filter fun t => !isCapitalized t.simpleName).map typeNaming

end FileCheck

def checkFile (l : Limits) (f : FileFacts) : List FileIssue :=
  (FileCheck.found l f).mergeSort fun a b => a.line ≤ b.line

end JavaAudit
