import JavaAudit.Source.Spot
import Mathlib.Data.List.Lex

/-! All spots within a tree, in preorder, and what stands around and below each of them. -/
namespace JavaAudit.Source

namespace Spot

/-- The numbers of the children on the way down to the spot. -/
def place : Spot → List Nat
  | root _ => []
  | child p i _ => p.place ++ [i]

def children (p : Spot) : List Spot := p.tree.children.mapIdx (child p)

mutual

def spread (put : Tree → Spot) : Tree → List Spot
  | .leaf r t => [put (.leaf r t)]
  | .node r k cs => put (.node r k cs) :: spreadAmong (put (.node r k cs)) 0 cs

def spreadAmong (parent : Spot) (index : Nat) : List Tree → List Spot
  | [] => []
  | t :: ts => spread (child parent index) t ++ spreadAmong parent (index + 1) ts

end

def inside : Spot → List Spot
  | root t => spread root t
  | child p i t => spread (child p i) t

theorem spreadAmongEq (p : Spot) (index : Nat) (ts : List Tree) :
    spreadAmong p index ts = (ts.mapIdx fun i => child p (index + i)).flatMap inside := by
  induction ts generalizing index with
  | nil => rfl
  | cons t ts ih =>
    have shifted : (fun i => child p (index + (i + 1))) = fun i => child p (index + 1 + i) := by
      funext i
      rw [Nat.add_right_comm, Nat.add_assoc]
    simp [spreadAmong, ih, inside, List.mapIdx_cons, shifted]

theorem insideEq (p : Spot) : p.inside = p :: p.children.flatMap inside := by
  have spreads : ∀ put : Tree → Spot, (∀ t, (put t).tree = t) → ∀ t,
      spread put t = put t :: (put t).children.flatMap inside := by
    intro put putTree t
    cases t with
    | leaf r token => simp [spread, children, putTree, Tree.children]
    | node r k cs => simp [spread, spreadAmongEq, children, putTree, Tree.children]
  cases p with
  | root t => exact spreads root (fun _ => rfl) t
  | child p i t => exact spreads (child p i) (fun _ => rfl) t

theorem memChildren {p c : Spot} :
    c ∈ p.children ↔ ∃ i t, p.tree.children[i]? = some t ∧ child p i t = c := by
  simp only [children, List.mem_mapIdx, List.getElem?_eq_some_iff]
  constructor
  · rintro ⟨i, bound, rfl⟩
    exact ⟨i, _, ⟨bound, rfl⟩, rfl⟩
  · rintro ⟨i, _, ⟨bound, rfl⟩, rfl⟩
    exact ⟨i, bound, rfl⟩

theorem childrenTrees (p : Spot) : p.children.map tree = p.tree.children := by
  refine List.ext_getElem (by simp [children]) fun i _ _ => ?_
  simp only [children, List.getElem_map, List.getElem_mapIdx]
  rfl

theorem memChildrenTree {p c : Spot} (below : c ∈ p.children) : c.tree ∈ p.tree.children := by
  rw [← childrenTrees]
  exact List.mem_map_of_mem below

theorem induct {P : Spot → Prop} (step : ∀ p, (∀ c ∈ p.children, P c) → P p) (p : Spot) : P p := by
  refine step p fun c below => ?_
  have smaller : sizeOf c.tree < sizeOf p.tree := by
    have mem := memChildrenTree below
    cases shape : p.tree with
    | leaf r t => simp [shape, Tree.children] at mem
    | node r k cs =>
      rw [shape, Tree.children] at mem
      have := List.sizeOf_lt_of_mem mem
      simp only [Tree.node.sizeOf_spec]
      omega
  exact induct step c
termination_by sizeOf p.tree

/-- The spot and all spots around it, the innermost first. -/
def chain : Spot → List Spot
  | root t => [root t]
  | child p i t => child p i t :: p.chain

@[simp] theorem selfInChain (p : Spot) : p ∈ p.chain := by
  cases p <;> simp [chain]

theorem chainOfChild {p c : Spot} (below : c ∈ p.children) : c.chain = c :: p.chain := by
  obtain ⟨i, t, -, rfl⟩ := memChildren.mp below
  rfl

theorem chainTrans {a b c : Spot} (first : a ∈ b.chain) (second : b ∈ c.chain) : a ∈ c.chain := by
  induction c with
  | root t =>
    obtain rfl := List.mem_singleton.mp second
    exact first
  | child p i t ih =>
    rcases List.mem_cons.mp second with rfl | second
    · exact first
    · exact List.mem_cons_of_mem _ (ih second)

@[simp] theorem selfInside (p : Spot) : p ∈ p.inside := by
  simp [insideEq p]

theorem memInside {p q : Spot} : q ∈ p.inside ↔ q = p ∨ ∃ c ∈ p.children, q ∈ c.inside := by
  rw [insideEq, List.mem_cons, List.mem_flatMap]

theorem insideChain {p q : Spot} (mem : q ∈ p.inside) : p ∈ q.chain := by
  induction p using induct with
  | step p ih =>
    rcases memInside.mp mem with rfl | ⟨c, below, mem⟩
    · exact selfInChain q
    · refine chainTrans ?_ (ih c below mem)
      simp [chainOfChild below]

theorem insideTrans {p q r : Spot} (first : q ∈ p.inside) (second : r ∈ q.inside) :
    r ∈ p.inside := by
  induction p using induct with
  | step p ih =>
    rcases memInside.mp first with rfl | ⟨c, below, first⟩
    · exact second
    · exact memInside.mpr (.inr ⟨c, below, ih c below first⟩)

theorem childInside {p q c : Spot} (mem : q ∈ p.inside) (below : c ∈ q.children) :
    c ∈ p.inside :=
  insideTrans mem (memInside.mpr (.inr ⟨c, below, selfInside c⟩))

theorem parentInside {p q : Spot} {i : Nat} {t : Tree} (mem : child q i t ∈ p.inside) :
    child q i t = p ∨ q ∈ p.inside ∧ child q i t ∈ q.children := by
  induction p using induct with
  | step p ih =>
    rcases memInside.mp mem with same | ⟨c, below, mem⟩
    · exact .inl same
    · refine .inr ?_
      rcases ih c below mem with rfl | ⟨deeper, last⟩
      · obtain ⟨j, u, -, same⟩ := memChildren.mp below
        cases same
        exact ⟨selfInside q, below⟩
      · exact ⟨memInside.mpr (.inr ⟨c, below, deeper⟩), last⟩

theorem aroundInside {t : Tree} {a q : Spot} (mem : q ∈ (root t).inside) (around : a ∈ q.chain) :
    a ∈ (root t).inside ∧ q ∈ a.inside := by
  induction q with
  | root u =>
    obtain rfl := List.mem_singleton.mp around
    exact ⟨mem, selfInside _⟩
  | child p i u ih =>
    rcases List.mem_cons.mp around with rfl | around
    · exact ⟨mem, selfInside _⟩
    · rcases parentInside mem with same | ⟨deeper, below⟩
      · cases same
      · obtain ⟨within, lower⟩ := ih deeper around
        exact ⟨within, childInside lower below⟩

theorem placeBelow {a q : Spot} (around : a ∈ q.chain) : ∃ rest, q.place = a.place ++ rest := by
  induction q with
  | root t =>
    obtain rfl := List.mem_singleton.mp around
    exact ⟨[], by simp⟩
  | child p i t ih =>
    rcases List.mem_cons.mp around with rfl | around
    · exact ⟨[], by simp⟩
    · obtain ⟨rest, lower⟩ := ih around
      exact ⟨rest ++ [i], by simp [place, lower]⟩

def depth (p : Spot) : Nat := p.place.length

@[simp] theorem depthChild (p : Spot) (i : Nat) (t : Tree) :
    (child p i t).depth = p.depth + 1 := by
  simp [depth, place]

theorem depthAround {a q : Spot} (around : a ∈ q.chain) : a.depth ≤ q.depth := by
  obtain ⟨rest, lower⟩ := placeBelow around
  simp [depth, lower]

theorem eqOfDepth {a b q : Spot} (first : a ∈ q.chain) (second : b ∈ q.chain)
    (same : a.depth = b.depth) : a = b := by
  induction q with
  | root t => rw [List.mem_singleton.mp first, List.mem_singleton.mp second]
  | child p i t ih =>
    -- Of a spot and one around it, the second has the smaller depth.
    have apart : ∀ {c}, c ∈ p.chain → c.depth < (child p i t).depth := by
      intro c around
      have := depthAround around
      rw [depthChild]
      omega
    rcases List.mem_cons.mp first with rfl | first
    · rcases List.mem_cons.mp second with rfl | second
      · rfl
      · exact absurd same (Nat.ne_of_gt (apart second))
    · rcases List.mem_cons.mp second with rfl | second
      · exact absurd same (Nat.ne_of_lt (apart first))
      · exact ih first second

def Before (p q : Spot) : Prop := List.Lex (· < ·) p.place q.place

theorem Before.apart {p q : Spot} (earlier : Before p q) : p.place ≠ q.place :=
  List.Lex.to_ne (List.Lex.imp (fun _ _ => Nat.ne_of_lt) _ _ earlier)

theorem insideOrdered (p : Spot) : p.inside.Pairwise Before := by
  induction p using induct with
  | step p ih =>
    have numbered : ∀ {i t q}, q ∈ (child p i t).inside → ∃ rest, q.place = p.place ++ i :: rest := by
      intro i t q mem
      obtain ⟨rest, lower⟩ := placeBelow (insideChain mem)
      exact ⟨rest, by simp [lower, place]⟩
    rw [insideEq, List.pairwise_cons, List.pairwise_flatMap]
    refine ⟨?_, ih, ?_⟩
    · intro q mem
      obtain ⟨c, below, mem⟩ := List.mem_flatMap.mp mem
      obtain ⟨i, t, -, rfl⟩ := memChildren.mp below
      obtain ⟨rest, lower⟩ := numbered mem
      rw [Before, lower]
      simpa using List.Lex.append_left (· < ·) (@List.Lex.nil _ _ i rest) p.place
    · refine List.pairwise_iff_getElem.mpr fun i j _ _ less => ?_
      simp only [children, List.getElem_mapIdx]
      intro q first r second
      obtain ⟨_, left⟩ := numbered first
      obtain ⟨_, right⟩ := numbered second
      rw [Before, left, right]
      exact List.Lex.append_left (· < ·) (.rel less) p.place

end Spot

def Tree.spots (t : Tree) : List Spot := (Spot.root t).inside

theorem Tree.memSpots {t u : Tree} {p : Spot} {i : Nat} :
    .child p i u ∈ t.spots ↔ p ∈ t.spots ∧ p.tree.children[i]? = some u := by
  constructor
  · intro mem
    rcases Spot.parentInside mem with same | ⟨within, below⟩
    · cases same
    · obtain ⟨j, v, found, same⟩ := Spot.memChildren.mp below
      cases same
      exact ⟨within, found⟩
  · rintro ⟨within, found⟩
    exact Spot.childInside within (Spot.memChildren.mpr ⟨i, u, found, rfl⟩)

theorem Spot.inherits {P : Tree → Prop} (down : ∀ {t c}, P t → c ∈ t.children → P c) {t : Tree}
    (holds : P t) {p : Spot} (within : p ∈ t.spots) : P p.tree := by
  induction p with
  | root u =>
    cases List.mem_singleton.mp (insideChain within)
    exact holds
  | child q i u ih =>
    obtain ⟨above, found⟩ := Tree.memSpots.mp within
    exact down (ih above) (List.mem_of_getElem? found)

end JavaAudit.Source
