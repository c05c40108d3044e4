import JavaAudit.Graph.Basic
import JavaAudit.Naming

/-! A dependency graph as a DOT drawing: one line for each node, then one line for each edge. -/
namespace JavaAudit.DependencyGraph

def dotNode (known : String → Bool) (name : String) : String :=
  "  \"" ++ name ++ "\" [label=\"" ++ simpleName name ++ "\", style=" ++
    (if known name then "solid" else "dashed") ++ "];\n"

def dotEdge (e : DependencyEdge) : String :=
  "  \"" ++ e.source ++ "\" -> \"" ++ e.target ++ "\" [color=" ++
    (if e.source = e.target then "gray" else "black") ++ "];\n"

def toDot (g : DependencyGraph) (known : String → Bool) : String :=
  "digraph dependencies \x7b\n  rankdir=LR;\n  node [shape=box];\n\n" ++
    String.join (g.nodes.map (dotNode known)) ++ "\n" ++
    String.join (g.edges.map dotEdge) ++ "\x7d\n"

end JavaAudit.DependencyGraph
