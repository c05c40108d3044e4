import JavaAudit.Detect.Cycles
import JavaAudit.Issue

/-! The checks of a whole project, in the order in which their issues are reported. -/
namespace JavaAudit

structure DetectorConfig where
  godPackageThreshold : Nat := 15
  deepPackageThreshold : Nat := 6
  entryPointSuffixes : List String := ["Application", "Main", "Test"]
  dedupeCycles : Bool := false
  deriving DecidableEq, Repr, Inhabited

namespace Detect

def isEntryPoint (suffixes : List String) (t : TypeInfo) : Bool :=
  suffixes.any fun suffix => !suffix.isEmpty && suffix.toList.isSuffixOf t.simpleName.toList

def needsUser (suffixes : List String) (t : TypeInfo) : Bool :=
  t.visibility == .isPublic && !t.kind.isInterface && !t.nested && !isEntryPoint suffixes t

def unusedIssue (t : TypeInfo) : ProjectIssue where
  severity := .info
  code := .unusedPublicClass
  message := "Public " ++ t.kind.name ++ " '" ++ t.simpleName ++
    "' is not referenced by any other project type"
  suggestion := "Remove it, reduce its visibility, or add it to the entry-point suffixes if it is " ++
    "used externally"
  location := t.file

def unused (suffixes : List String) (symbols : SymbolTable) (g : DependencyGraph) :
    List ProjectIssue :=
  (symbols.types.toList.filter fun (name, t) =>
    needsUser suffixes t && (g.usersOf name).isEmpty).map fun (_, t) => unusedIssue t

def cycleIssue (cycle : List String) : ProjectIssue where
  severity := .warning
  code := .circularDependency
  message := "Circular dependency: " ++ Cycles.render cycle
  suggestion := "Break the cycle by introducing an interface or moving the shared code into a " ++
    "separate type"
  location := cycle.headD ""

def cycles (dedupe : Bool) (symbols : SymbolTable) (g : DependencyGraph) : List ProjectIssue :=
  (Cycles.find dedupe symbols g).map cycleIssue

def godPackageIssue (threshold : Nat) (package : String) (count : Nat) : ProjectIssue where
  severity := .warning
  code := .godPackage
  message := "Package '" ++ package ++ "' contains " ++ toString count ++ " types (limit " ++
    toString threshold ++ ")"
  suggestion := "Split the package by responsibility into smaller packages"
  location := package

def godPackages (threshold : Nat) (symbols : SymbolTable) : List ProjectIssue :=
  (symbols.byPackage.toList.filter fun (_, ts) => threshold < ts.length).map fun (package, ts) =>
    godPackageIssue threshold package ts.length

def deepPackageIssue (threshold : Nat) (package : String) : ProjectIssue where
  severity := .info
  code := .deepPackage
  message := "Package '" ++ package ++ "' is nested " ++ toString (packageDepth package) ++
    " levels deep (limit " ++ toString threshold ++ ")"
  suggestion := "Flatten the package hierarchy"
  location := package

def deepPackages (threshold : Nat) (symbols : SymbolTable) : List ProjectIssue :=
  (symbols.byPackage.keys.filter fun package => threshold < packageDepth package).map
    (deepPackageIssue threshold)

end Detect

inductive Detector where
  | unusedPublicType | circularDependency | godPackage | deepPackage
  deriving DecidableEq, Repr, Inhabited

namespace Detector

def all : List Detector := [unusedPublicType, circularDependency, godPackage, deepPackage]

def name : Detector → String
  | unusedPublicType => "unused-public-type"
  | circularDependency => "circular-dependency"
  | godPackage => "god-package"
  | deepPackage => "deep-package"

def run (c : DetectorConfig) (symbols : SymbolTable) (g : DependencyGraph) :
    Detector → List ProjectIssue
  | unusedPublicType => Detect.unused c.entryPointSuffixes symbols g
  | circularDependency => Detect.cycles c.dedupeCycles symbols g
  | godPackage => Detect.godPackages c.godPackageThreshold symbols
  | deepPackage => Detect.deepPackages c.deepPackageThreshold symbols

end Detector

def projectIssues (c : DetectorConfig) (symbols : SymbolTable) (g : DependencyGraph) :
    List ProjectIssue :=
  Detector.all.flatMap (Detector.run c symbols g)

end JavaAudit
