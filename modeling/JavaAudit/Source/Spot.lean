import JavaAudit.Source.Tree

/-! Where the trees within a tree stand. A spot is a tree together with all trees around it, so that
what stands around a tree can be told from its spot alone. From a spot one can go to the first tree
that it holds, to the tree next to it and to the tree around it. -/
namespace JavaAudit.Source

inductive Spot where
  | root (tree : Tree)
  | child (parent : Spot) (index : Nat) (tree : Tree)

namespace Spot

def tree : Spot → Tree
  | root t => t
  | child _ _ t => t

@[simp] theorem treeRoot (t : Tree) : (root t).tree = t := rfl

@[simp] theorem treeChild (p : Spot) (i : Nat) (t : Tree) : (child p i t).tree = t := rfl

def parent? : Spot → Option Spot
  | root _ => none
  | child p _ _ => some p

def childAt? (p : Spot) (index : Nat) : Option Spot :=
  p.tree.children[index]?.map (child p index)

def next? : Spot → Option Spot
  | root _ => none
  | child p i _ => p.childAt? (i + 1)

end Spot

end JavaAudit.Source
