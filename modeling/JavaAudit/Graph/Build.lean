import JavaAudit.Graph.Basic
import JavaAudit.SymbolTable

/-! The dependency graph that the facts of the files give rise to. Wildcard imports link nothing. -/
namespace JavaAudit

/-- The imports of a file that link it to a type: one that the project declares, or one whose simple
name the file mentions. -/
def importTargets (symbols : SymbolTable) (f : FileFacts) : List String :=
  (f.imports.filter fun i =>
    !i.isWildcard && (symbols.contains i.path || f.usedTypes.contains i.simpleName)).map
    ImportRef.path

def packageTargets (symbols : SymbolTable) (f : FileFacts) : List String :=
  (f.usedTypes.toList.map (qualify f.package)).filter symbols.contains

def fileTargets (samePackage : Bool) (symbols : SymbolTable) (f : FileFacts) : List String :=
  importTargets symbols f ++ if samePackage then packageTargets symbols f else []

def fileEdges (samePackage : Bool) (symbols : SymbolTable) (f : FileFacts) : List DependencyEdge :=
  (fileTargets samePackage symbols f).flatMap fun target =>
    f.types.map fun t => ⟨t.fullName, target⟩

def DependencyGraph.addEdges (g : DependencyGraph) (edges : List DependencyEdge) : DependencyGraph :=
  edges.foldl (fun g e => g.addEdge e.source e.target) g

/-- The graph of all files; a file without facts adds nothing. -/
def buildGraph (samePackage : Bool) (symbols : SymbolTable) (files : List (Option FileFacts)) :
    DependencyGraph :=
  (files.filterMap id).foldl (fun g f => g.addEdges (fileEdges samePackage symbols f))
    (symbols.names.foldl DependencyGraph.addNode .empty)

end JavaAudit
