/-! Issues, their severities and codes, and the counts of issues by severity. -/
namespace JavaAudit

inductive Severity where
  | info | warning | error | critical
  deriving DecidableEq, Repr, Inhabited

namespace Severity

def all : List Severity := [info, warning, error, critical]

def name : Severity → String
  | info => "INFO"
  | warning => "WARNING"
  | error => "ERROR"
  | critical => "CRITICAL"

def rank : Severity → Nat
  | info => 0
  | warning => 1
  | error => 2
  | critical => 3

instance : LE Severity := ⟨fun a b => a.rank ≤ b.rank⟩

instance (a b : Severity) : Decidable (a ≤ b) := inferInstanceAs (Decidable (a.rank ≤ b.rank))

def ofName? (text : String) : Option Severity := all.find? (·.name == text)

/-- The severity that a user means: letter case does not matter, and `WARN` is a warning. -/
def read (text : String) : Except String Severity :=
  let upper := String.ofList (text.toList.map Char.toUpper)
  match ofName? (if upper = "WARN" then "WARNING" else upper) with
  | some s => .ok s
  | none => .error ("Invalid severity: " ++ text)

end Severity

inductive IssueCode where
  | unusedPublicClass | circularDependency | godPackage | deepPackage
  | highComplexity | longMethod | tooManyParameters | emptyCatchBlock | typeNaming
  deriving DecidableEq, Repr, Inhabited

namespace IssueCode

def all : List IssueCode :=
  [unusedPublicClass, circularDependency, godPackage, deepPackage, highComplexity, longMethod,
    tooManyParameters, emptyCatchBlock, typeNaming]

def name : IssueCode → String
  | unusedPublicClass => "UNUSED_PUBLIC_CLASS"
  | circularDependency => "CIRCULAR_DEPENDENCY"
  | godPackage => "GOD_PACKAGE"
  | deepPackage => "DEEP_PACKAGE"
  | highComplexity => "HIGH_COMPLEXITY"
  | longMethod => "LONG_METHOD"
  | tooManyParameters => "TOO_MANY_PARAMETERS"
  | emptyCatchBlock => "EMPTY_CATCH_BLOCK"
  | typeNaming => "TYPE_NAMING"

def ofName? (text : String) : Option IssueCode := all.find? (·.name == text)

end IssueCode

structure ProjectIssue where
  severity : Severity
  code : IssueCode
  message : String
  suggestion : String
  location : String
  deriving DecidableEq, Repr, Inhabited

structure FileIssue where
  severity : Severity
  code : IssueCode
  message : String
  suggestion : String
  line : Nat
  deriving DecidableEq, Repr, Inhabited

structure SeverityCounts where
  info : UInt64 := 0
  warning : UInt64 := 0
  error : UInt64 := 0
  critical : UInt64 := 0
  deriving DecidableEq, Repr, Inhabited

namespace SeverityCounts

def bump (c : SeverityCounts) : Severity → SeverityCounts
  | .info => { c with info := c.info + 1 }
  | .warning => { c with warning := c.warning + 1 }
  | .error => { c with error := c.error + 1 }
  | .critical => { c with critical := c.critical + 1 }

def get (c : SeverityCounts) : Severity → UInt64
  | .info => c.info
  | .warning => c.warning
  | .error => c.error
  | .critical => c.critical

def total (c : SeverityCounts) : UInt64 := c.info + c.warning + c.error + c.critical

theorem getBump (c : SeverityCounts) (s t : Severity) :
    (c.bump s).get t = if s = t then c.get t + 1 else c.get t := by
  cases s <;> cases t <;> rfl

end SeverityCounts

end JavaAudit
