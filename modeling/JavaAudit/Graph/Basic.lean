import JavaAudit.Data.NameMap

/-! Which type uses which. A use is kept in both directions; a type may use itself, and a used type
need not belong to the project. -/
namespace JavaAudit

structure DependencyGraph where
  dependencies : NameMap NameSet
  usedBy : NameMap NameSet
  deriving DecidableEq, Inhabited

structure DependencyEdge where
  source : String
  target : String
  deriving DecidableEq, Repr, Inhabited

namespace DependencyGraph

def empty : DependencyGraph := ⟨.empty, .empty⟩

def targets (g : DependencyGraph) (name : String) : NameSet := (g.dependencies.get? name).getD .empty

def sources (g : DependencyGraph) (name : String) : NameSet := (g.usedBy.get? name).getD .empty

def addNode (g : DependencyGraph) (name : String) : DependencyGraph :=
  { g with dependencies := g.dependencies.alter name (·.getD .empty) }

def addEdge (g : DependencyGraph) (source target : String) : DependencyGraph where
  dependencies := g.dependencies.alter source (·.getD .empty |>.insert target)
  usedBy := g.usedBy.alter target (·.getD .empty |>.insert source)

def connect (g : DependencyGraph) (source target : String) : Bool × DependencyGraph :=
  let (isNew, targets) := (g.targets source).insertNew target
  (isNew, {
    dependencies := g.dependencies.insert source targets
    usedBy := g.usedBy.alter target (·.getD .empty |>.insert source) })

def hasEdge (g : DependencyGraph) (source target : String) : Bool :=
  (g.targets source).contains target

def dependenciesOf (g : DependencyGraph) (name : String) : List String := (g.targets name).toList

def usersOf (g : DependencyGraph) (name : String) : List String :=
  (g.sources name).toList.filter (· ≠ name)

def edges (g : DependencyGraph) : List DependencyEdge :=
  g.dependencies.toList.flatMap fun (source, targets) => targets.toList.map (⟨source, ·⟩)

def edgeCount (g : DependencyGraph) : Nat := (g.dependencies.values.map NameSet.size).foldr (· + ·) 0

def nodes (g : DependencyGraph) : List String :=
  (NameSet.ofList (g.dependencies.keys ++ g.usedBy.keys)).toList

end DependencyGraph

end JavaAudit
