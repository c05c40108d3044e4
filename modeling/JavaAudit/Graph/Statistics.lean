import JavaAudit.Graph.Basic

/-! Figures of a dependency graph. -/
namespace JavaAudit

structure GraphStatistics where
  totalNodes : Nat := 0
  totalEdges : Nat := 0
  selfLoops : Nat := 0
  maxFanIn : Nat := 0
  maxFanInType : Option String := none
  maxFanOut : Nat := 0
  maxFanOutType : Option String := none
  deriving DecidableEq, Repr, Inhabited

namespace DependencyGraph

def largest (sets : NameMap NameSet) : Nat × Option String :=
  sets.toList.foldl
    (fun best (name, s) => if best.1 < s.size then (s.size, some name) else best) (0, none)

def statistics (g : DependencyGraph) : GraphStatistics where
  totalNodes := g.nodes.length
  totalEdges := g.edgeCount
  selfLoops := g.dependencies.toList.countP fun (name, targets) => targets.contains name
  maxFanIn := (largest g.usedBy).1
  maxFanInType := (largest g.usedBy).2
  maxFanOut := (largest g.dependencies).1
  maxFanOutType := (largest g.dependencies).2

end DependencyGraph

end JavaAudit
