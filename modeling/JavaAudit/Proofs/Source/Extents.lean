import JavaAudit.Proofs.Source.Lexing
import JavaAudit.Proofs.Source.Shapes

/-! How far trees extend in a source. The leaves of a parsed tree are the tokens of the source, so a tree
that comes later in the tree begins no earlier in the source, and none ends before it begins. -/
namespace JavaAudit.Source

theorem leavesOfEq (ts : List Tree) : Tree.leavesOf ts = ts.flatMap Tree.leaves := by
  induction ts with
  | nil => rfl
  | cons t ts ih => rw [Tree.leavesOf, ih, List.flatMap_cons]

namespace Spot

theorem leavesOfChildren (p : Spot) :
    (p.children.flatMap fun c => c.tree.leaves) <:+: p.tree.leaves := by
  rw [← List.flatMap_map tree, childrenTrees, ← leavesOfEq]
  cases p.tree with
  | leaf r token => exact List.nil_infix
  | node r k cs => exact List.infix_rfl

theorem leavesOfChild {p c : Spot} (below : c ∈ p.children) : c.tree.leaves <:+: p.tree.leaves := by
  refine List.IsInfix.trans ?_ (leavesOfChildren p)
  rw [List.flatMap_def]
  exact List.infix_of_mem_flatten (List.mem_map_of_mem below)

theorem leavesInside {p q : Spot} (inside : q ∈ p.inside) : q.tree.leaves <:+: p.tree.leaves := by
  induction p using induct with
  | step p ih =>
    rcases memInside.mp inside with rfl | ⟨c, below, inside⟩
    · exact List.infix_rfl
    · exact (ih c below inside).trans (leavesOfChild below)

/-- What holds between each leaf and the later ones holds between the first leaf of each spot and that
of the later ones, unless it is the same leaf. -/
theorem firstLeavesOrdered {r : Token → Token → Prop} (p : Spot) (order : p.tree.leaves.Pairwise r) :
    p.inside.Pairwise fun q s => ∀ a ∈ q.tree.leaves.head?, ∀ b ∈ s.tree.leaves.head?,
      a = b ∨ r a b := by
  induction p using induct with
  | step p ih =>
    rw [insideEq, List.pairwise_cons, List.pairwise_flatMap]
    refine ⟨fun q mem a first b second => ?_, fun c below => ?_, ?_⟩
    · obtain ⟨c, below, inside⟩ := List.mem_flatMap.mp mem
      have within := (leavesInside (memInside.mpr (.inr ⟨c, below, inside⟩))).subset
        (List.mem_of_mem_head? second)
      obtain ⟨others, shape⟩ := List.head?_eq_some_iff.mp first
      rw [shape] at within order
      rcases List.mem_cons.mp within with rfl | later
      · exact .inl rfl
      · exact .inr ((List.pairwise_cons.mp order).1 b later)
    · exact ih c below (order.sublist (leavesOfChild below).sublist)
    · have apart := (List.pairwise_flatMap.mp (order.sublist (leavesOfChildren p).sublist)).2
      refine apart.imp fun {c d} related q inside s inside' a first b second => .inr ?_
      exact related a ((leavesInside inside).subset (List.mem_of_mem_head? first)) b
        ((leavesInside inside').subset (List.mem_of_mem_head? second))

end Spot

section Parsed

variable {source : String} {tree : Tree} (parsed : parse source = .parsed tree)
include parsed

theorem parsedStarts :
    tree.spots.Pairwise fun p q => p.tree.leaves ≠ [] → q.tree.leaves ≠ [] →
      p.tree.start.row ≤ q.tree.start.row := by
  obtain ⟨inside, order⟩ := sourceRows source
  rw [← parsedLeaves parsed] at inside order
  have starts : tree.leaves.Pairwise fun a b => a.start.row ≤ b.start.row :=
    order.imp_of_mem fun left _ rows => Nat.le_trans (inside _ left).1 rows
  refine (Spot.firstLeavesOrdered (.root tree) starts).imp fun {p q} ordered left right => ?_
  have first := List.head?_eq_some_head left
  have second := List.head?_eq_some_head right
  rw [Tree.start, Tree.start, first, second]
  rcases ordered _ first _ second with same | rows
  · rw [same]
  · exact rows

theorem parsedExtent {p : Spot} (within : p ∈ tree.spots) (filled : p.tree.leaves ≠ []) :
    p.tree.start.row ≤ p.tree.stop.row ∧ p.tree.stop.row ≤ source.toList.count '\n' := by
  obtain ⟨inside, order⟩ := sourceRows source
  rw [← parsedLeaves parsed] at inside order
  have part : p.tree.leaves <:+: tree.leaves := Spot.leavesInside within
  have last := inside _ (part.subset (List.getLast_mem filled))
  rw [Tree.start, Tree.stop, List.head?_eq_some_head filled, List.getLast?_eq_some_getLast filled]
  refine ⟨?_, last.2⟩
  generalize p.tree.leaves = leaves at part filled last
  cases leaves with
  | nil => exact absurd rfl filled
  | cons a rest =>
    have first := inside a (part.subset List.mem_cons_self)
    have later := (List.pairwise_cons.mp (order.sublist part.sublist)).1
    rcases List.mem_cons.mp (List.getLast_mem filled) with same | mem
    · simpa [same] using first.1
    · exact (first.1.trans (later _ mem)).trans last.1

end Parsed

namespace Rule

variable {N : Type}

def takesToken : Rule N → Bool
  | .terminal _ => true
  | .both first next => first.takesToken || next.takesToken
  | .node _ item | .playing _ item | .given _ item | .only _ item => item.takesToken
  | _ => false

theorem leavesOfTaken {rules : N → Rule N} {rule : Rule N} {ts : List Tree}
    (derives : Derives rules rule ts) (takes : rule.takesToken = true) :
    Tree.leavesOf ts ≠ [] := by
  induction derives with
  | terminal accepted => simp [Tree.leavesOf, Tree.leaves]
  | both left right first next =>
    rw [Tree.leavesOfAppend]
    rcases Bool.or_eq_true_iff.mp takes with takes | takes
    · exact List.append_ne_nil_of_left_ne_nil (first takes) _
    · exact List.append_ne_nil_of_right_ne_nil _ (next takes)
  | node below ih =>
    rw [leavesSingle]
    exact ih takes
  | playing same ih =>
    rw [leavesPlaying]
    exact ih takes
  | given same ih => exact ih takes
  | only same fitting ih => exact ih takes
  | _ => cases takes

end Rule

end JavaAudit.Source
