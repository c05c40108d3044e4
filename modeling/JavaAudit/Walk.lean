import JavaAudit.Files.Listing
import JavaAudit.Settings.Basic

/-! The source files below a directory. Hidden, excluded and test directories are not entered. -/
namespace JavaAudit

structure WalkRules where
  excludedDirs : List String
  testDirNames : List String
  leftOut : String → Bool
  maxDepth : Option Nat

structure WalkOutcome where
  files : List (List String)
  skipped : List AuditError
  deriving DecidableEq, Repr, Inhabited

namespace WalkRules

def isHidden (name : String) : Bool := name.toList.head? = some '.'

def prunes (r : WalkRules) (names : List String) (name : String) : Bool :=
  isHidden name || r.excludedDirs.contains name || r.testDirNames.contains name ||
    r.leftOut (Path.ofNames names)

def isSource (name : String) : Bool := Path.extension? name = some "java"

def inTestDir (r : WalkRules) (names : List String) : Bool :=
  names.dropLast.any r.testDirNames.contains

def takes (r : WalkRules) (names : List String) (name : String) : Bool :=
  isSource name && !(r.inTestDir names || r.leftOut (Path.ofNames names))

def reaches (r : WalkRules) (depth : Nat) : Bool := r.maxDepth.all (depth ≤ ·)

end WalkRules

inductive Sighting where
  | source (names : List String)
  | broken (names : List String) (cause : IoFault)
  | loop (names ancestor : List String)
  deriving DecidableEq, Repr, Inhabited

mutual

/-- What is come across at and below the entry at these names, the last of which is its own. -/
def sightings (r : WalkRules) (names : List String) (name : String) : Listing → List Sighting
  | .file => if r.takes names name then [.source names] else []
  | .alias => []
  | .broken cause => [.broken names cause]
  | .loop ancestor => [.loop names ancestor]
  | .directory children => if r.prunes names name then [] else childSightings r names children

def childSightings (r : WalkRules) (parent : List String) : List (String × Listing) → List Sighting
  | [] => []
  | (name, l) :: rest =>
      (if r.reaches (parent.length + 1) then sightings r (parent ++ [name]) name l else []) ++
        childSightings r parent rest

end

namespace Sighting

def source? : Sighting → Option (List String)
  | source names => some names
  | _ => none

def error? (root : String) : Sighting → Option AuditError
  | source _ => none
  | broken names cause =>
      let path := Path.join root (Path.ofNames names)
      some (if cause.denied then .permissionDenied path
        else .directoryTraversal path ("IO error for operation on " ++ path ++ ": " ++ cause.text))
  | loop names ancestor =>
      let path := Path.join root (Path.ofNames names)
      let above := if ancestor.isEmpty then root else Path.join root (Path.ofNames ancestor)
      some (.directoryTraversal path
        ("File system loop found: " ++ path ++ " points to an ancestor " ++ above))

def names : Sighting → List String
  | source names | broken names _ | loop names _ => names

end Sighting

def Listing.sightings (r : WalkRules) : Listing → List Sighting
  | .directory children => childSightings r [] children
  | _ => []

def sortPaths (paths : List (List String)) : List (List String) := paths.mergeSort Path.precedes

def Listing.walk (r : WalkRules) (root : String) (l : Listing) : WalkOutcome :=
  let seen := l.sightings r
  let trouble := seen.filter (·.source?.isNone)
  ⟨sortPaths (seen.filterMap Sighting.source?),
    (trouble.mergeSort fun a b => Path.precedes a.names b.names).filterMap (Sighting.error? root)⟩

def compilePatterns (patterns : List String) : Except AuditError (List Glob) :=
  patterns.mapM fun p => (Glob.read p).mapError .globPattern

/-- A backslash counts as a slash. -/
def matchesAny (globs : List Glob) (path : String) : Bool :=
  let normal := String.ofList (path.toList.map fun c => if c = '\\' then '/' else c)
  globs.any (·.accepts normal)

def Settings.walkRules (s : Settings) : Except AuditError WalkRules := do
  let globs ← compilePatterns s.excludePatterns
  pure ⟨s.excludedDirs, s.testDirNames, matchesAny globs, s.maxDepth⟩

def walk (t : FileTree) (s : Settings) : Except AuditError WalkOutcome := do
  let rules ← s.walkRules
  match Listing.at? t s.followLinks s.scanPath with
  | some (.directory children) => pure ((Listing.directory children).walk rules s.scanPath)
  | _ => throw (.invalidPath s.scanPath)

end JavaAudit
