import JavaAudit.Proofs.Source.Derivation
import JavaAudit.Proofs.Source.Spots

/-! The search for the first fault. Whatever trees are marked, it comes to an end. If every tree with a
fault in it is marked, it ends at the first fault in preorder, where a search through all trees ends
as well, so that a damaged tree is always refused for a fault of its own. -/
namespace JavaAudit.Source

namespace Spot

theorem childAtEq (p : Spot) (i : Nat) : p.childAt? i = p.children[i]? := by
  simp [childAt?, children]

def ahead : Spot → List Spot
  | root _ => []
  | child p i _ => (p.children.drop (i + 1)).flatMap inside ++ p.ahead

theorem insideFromChild {p c : Spot} {i : Nat} (found : p.childAt? i = some c) :
    (p.children.drop i).flatMap inside ++ p.ahead = c.inside ++ c.ahead := by
  obtain ⟨bound, there⟩ := List.getElem?_eq_some_iff.mp (childAtEq p i ▸ found)
  obtain ⟨t, _, rfl⟩ := Option.map_eq_some_iff.mp found
  rw [List.drop_eq_getElem_cons bound, there, List.flatMap_cons, List.append_assoc, ahead]

theorem noneFromChild {p : Spot} {i : Nat} (absent : p.childAt? i = none) :
    p.children.drop i = [] := by
  rw [childAtEq, List.getElem?_eq_none_iff] at absent
  exact List.drop_eq_nil_of_le absent

theorem insideTrees (p : Spot) : p.inside.map tree = p.tree.preorder := by
  induction p using induct with
  | step p ih =>
    rw [insideEq, List.map_cons, List.map_flatMap, Tree.preorderEq, Tree.preorderOfEq,
      ← childrenTrees, List.flatMap_map, List.flatMap_congr ih]

theorem damagedIff (p : Spot) :
    p.tree.damaged = true ↔ ∃ q ∈ p.inside, q.faulty = true := by
  induction p using induct with
  | step p ih =>
    rw [Tree.damagedEq, ← childrenTrees, Bool.or_eq_true, List.any_map, List.any_eq_true]
    constructor
    · intro damaged
      rcases damaged with here | ⟨c, below, damaged⟩
      · exact ⟨p, selfInside p, here⟩
      · obtain ⟨q, within, faulty⟩ := (ih c below).mp damaged
        exact ⟨q, memInside.mpr (.inr ⟨c, below, within⟩), faulty⟩
    · intro held
      obtain ⟨q, within, faulty⟩ := held
      rcases memInside.mp within with rfl | ⟨c, below, within⟩
      · exact .inl faulty
      · exact .inr ⟨c, below, (ih c below).mpr ⟨q, within, faulty⟩⟩

end Spot

namespace Probe

/-- What a search through all trees would still look at, in its order. -/
def rest : Probe → List Spot
  | before p => p.inside ++ p.ahead
  | behind p => p.ahead

theorem restRoot (t : Tree) : (before (.root t)).rest = t.spots :=
  List.append_nil _

namespace Turn

def rest : Turn → List Spot
  | ends _ => []
  | goes c => c.rest

def fault? : Turn → Option Spot
  | ends found => found
  | goes c => c.rest.find? Spot.faulty

end Turn

theorem restEntering {marked : Spot → Bool} {p c : Spot}
    (found : (if marked p then p.childAt? 0 else none) = some c) :
    (before p).rest = p :: (before c).rest := by
  split at found
  · have inner := Spot.insideFromChild found
    rw [List.drop_zero] at inner
    rw [rest, Spot.insideEq, List.cons_append, inner, rest]
  · contradiction

theorem restCrossing {p q : Spot} (found : p.next? = some q) : (behind p).rest = (before q).rest := by
  cases p with
  | root => contradiction
  | child p i t => exact Spot.insideFromChild found

theorem restClimbing {p q : Spot} (last : p.next? = none) (up : p.parent? = some q) :
    (behind p).rest = (behind q).rest := by
  cases p with
  | root => contradiction
  | child p i t =>
    cases up
    rw [rest, Spot.ahead, Spot.noneFromChild last]
    rfl

theorem restEnding {p : Spot} (top : p.parent? = none) : (behind p).rest = [] := by
  cases p with
  | root => rfl
  | child => contradiction

theorem turnRest (marked : Spot → Bool) (c : Probe) : (c.turn marked).rest <:+ c.rest := by
  fun_cases turn marked c with
  | case1 => exact List.nil_suffix
  | case2 p _ c found =>
    rw [restEntering found]
    exact List.suffix_cons _ _
  | case3 p => exact List.suffix_append _ _
  | case4 p q found => exact (restCrossing found).symm ▸ List.suffix_rfl
  | case5 p q up last => exact (restClimbing last up).symm ▸ List.suffix_rfl
  | case6 => exact List.nil_suffix

def Covers (marked : Spot → Bool) (spots : List Spot) : Prop :=
  ∀ p ∈ spots, marked p = false → ∀ q ∈ p.inside, q.faulty = false

theorem nothingPassed {marked : Spot → Bool} {p : Spot} (covers : Covers marked (before p).rest)
    (whole : ¬ p.faulty = true) (closed : (if marked p then p.childAt? 0 else none) = none) :
    ∀ q ∈ p.inside, ¬ q.faulty = true := by
  intro q within
  split at closed
  · -- A marked tree that cannot be entered holds nothing.
    rcases Spot.memInside.mp within with rfl | ⟨c, below, _⟩
    · exact whole
    · have empty := Spot.noneFromChild closed
      rw [List.drop_zero] at empty
      rw [empty] at below
      contradiction
  · next unmarked =>
    have here := covers p (List.mem_append_left _ (Spot.selfInside p))
    rw [here (Bool.eq_false_iff.mpr unmarked) q within]
    exact Bool.false_ne_true

theorem turnFinds {marked : Spot → Bool} {c : Probe} (covers : Covers marked c.rest) :
    (c.turn marked).fault? = c.rest.find? Spot.faulty := by
  fun_cases turn marked c with
  | case1 p faulty =>
    rw [rest, Spot.insideEq, List.cons_append, List.find?_cons_of_pos faulty]
    rfl
  | case2 p whole c found =>
    rw [restEntering found, List.find?_cons_of_neg whole]
    rfl
  | case3 p whole closed =>
    rw [rest, List.find?_append, List.find?_eq_none.mpr (nothingPassed covers whole closed)]
    rfl
  | case4 p q found =>
    rw [restCrossing found]
    rfl
  | case5 p q up last =>
    rw [restClimbing last up]
    rfl
  | case6 p top last =>
    rw [restEnding top]
    rfl

theorem searchFinds {marked : Spot → Bool} {c : Probe} (covers : Covers marked c.rest) :
    c.search marked = c.rest.find? Spot.faulty := by
  fun_induction search marked c with
  | case1 c found taken =>
    rw [← turnFinds covers, taken]
    rfl
  | case2 c d taken ih =>
    have later := turnRest marked c
    rw [taken] at later
    rw [← turnFinds covers, taken]
    exact ih fun p within => covers p (later.subset within)

inductive Loop (marked : Spot → Bool) : Probe → List Probe → Option Spot → Prop where
  | ended {c found} (taken : c.turn marked = .ends found) : Loop marked c [c] found
  | again {c d probes found} (taken : c.turn marked = .goes d) (rest : Loop marked d probes found) :
      Loop marked c (c :: probes) found

theorem turnsLeftPos (c : Probe) : 0 < c.turnsLeft := by
  have behindPos : ∀ p : Spot, 0 < p.turnsBehind := by
    intro p
    cases p <;> simp only [Spot.turnsBehind] <;> omega
  cases c with
  | before p => exact Nat.add_pos_right _ (behindPos p)
  | behind p => exact behindPos p

theorem searchLoops (marked : Spot → Bool) (c : Probe) :
    ∃ probes, Loop marked c probes (c.search marked) ∧ probes.length ≤ c.turnsLeft := by
  fun_induction search marked c with
  | case1 c found taken => exact ⟨[c], .ended taken, turnsLeftPos c⟩
  | case2 c d taken ih =>
    obtain ⟨probes, loop, few⟩ := ih
    have fewer := turnShortens taken
    refine ⟨c :: probes, .again taken loop, ?_⟩
    rw [List.length_cons]
    omega

end Probe

open Probe (Covers)

/-- Marked are exactly the trees that are a fault or hold one. -/
def Honest (marked : Spot → Bool) (t : Tree) : Prop :=
  ∀ p ∈ t.spots, marked p = true ↔ ∃ q ∈ p.inside, q.faulty = true

theorem damagedHonest (t : Tree) : Honest (·.tree.damaged) t :=
  fun p _ => p.damagedIff

section Marks

variable {t : Tree} {marked : Spot → Bool}

theorem Honest.covers (honest : Honest marked t) : Covers marked t.spots := by
  intro p within unmarked q below
  by_contra faulty
  have mark := (honest p within).mpr ⟨q, below, eq_true_of_ne_false faulty⟩
  rw [unmarked] at mark
  contradiction

theorem faultSpotEq (covers : Covers marked t.spots) :
    t.faultSpot? marked = t.spots.find? Spot.faulty := by
  rw [← Probe.restRoot] at covers ⊢
  exact Probe.searchFinds covers

theorem faultSpotLoops (marked : Spot → Bool) (t : Tree) :
    ∃ probes, Probe.Loop marked (.before (.root t)) probes (t.faultSpot? marked) ∧
      probes.length ≤ 2 * t.spots.length := by
  obtain ⟨probes, loop, few⟩ := Probe.searchLoops marked (.before (.root t))
  refine ⟨probes, loop, few.trans_eq ?_⟩
  rw [← List.length_map Spot.tree, Tree.spots, Spot.insideTrees, Tree.preorderEq]
  rfl

theorem faultSpotNone (honest : Honest marked t) :
    t.spots.find? Spot.faulty = none ↔ marked (.root t) = false := by
  rw [List.find?_eq_none, Bool.eq_false_iff, ne_eq, honest _ (Spot.selfInside _)]
  simp [Tree.spots]

theorem firstOrdered {p : Spot} (found : t.spots.find? Spot.faulty = some p) :
    p ∈ t.spots ∧ p.faulty = true ∧
      ∀ q ∈ t.spots, q.faulty = true → q = p ∨ Spot.Before p q := by
  refine ⟨List.mem_of_find?_eq_some found, List.find?_some found, fun q within faulty => ?_⟩
  obtain ⟨-, front, back, split, whole⟩ := List.find?_eq_some_iff_append.mp found
  have ordered := Spot.insideOrdered (.root t)
  rw [← Tree.spots, split, List.pairwise_append, List.pairwise_cons] at ordered
  rw [split, List.mem_append, List.mem_cons] at within
  rcases within with early | same | late
  · have clear := whole q early
    rw [faulty] at clear
    contradiction
  · exact .inl same
  · exact .inr (ordered.2.1.1 q late)

end Marks

theorem refusalEq (t : Tree) : t.refusal? = t.firstFault.map Fault.message := by
  have honest := damagedHonest t
  rw [Tree.refusal?, Tree.firstFault, faultSpotEq honest.covers]
  split
  · next damaged =>
    cases found : t.spots.find? Spot.faulty with
    | none =>
      have whole := (faultSpotNone honest).mp found
      simp [damaged] at whole
    | some p =>
      have faulty : p.faulty = true := List.find?_some found
      obtain ⟨fault, here⟩ := Option.isSome_iff_exists.mp faulty
      rw [Option.bind_some, here]
      rfl
  · next whole =>
    rw [(faultSpotNone honest).mpr (Bool.eq_false_iff.mpr whole)]
    rfl

theorem messageNamed (fault : Fault) : fault.message ≠ "syntax error" := by
  intro same
  have letters := congrArg String.toList same
  cases fault <;> simp [Fault.message, Fault.located] at letters

theorem refusedOfFailed {source reason : String} (failed : parse source = .failed reason) :
    (treeOfSource source).refusal? = some reason := by
  rw [parseEq] at failed
  cases refused : (treeOfSource source).refusal? with
  | none =>
    rw [refused] at failed
    contradiction
  | some other =>
    rw [refused] at failed
    cases failed
    rfl

theorem neverUnexplained (t : Tree) : t.refusal? ≠ some "syntax error" := by
  rw [refusalEq]
  intro same
  obtain ⟨fault, -, named⟩ := Option.map_eq_some_iff.mp same
  exact messageNamed fault named

theorem firstFaultFound {t : Tree} {marked : Spot → Bool} (honest : Honest marked t) :
    (∃ probes, Probe.Loop marked (.before (.root t)) probes (t.faultSpot? marked) ∧
      probes.length ≤ 2 * t.spots.length) ∧
    t.faultSpot? marked = t.spots.find? Spot.faulty ∧
    t.faultSpot? marked = t.faultSpot? (fun _ => true) ∧
    (∀ p, t.faultSpot? marked = some p → p ∈ t.spots ∧ p.faulty = true ∧
      ∀ q ∈ t.spots, q.faulty = true → q = p ∨ Spot.Before p q) ∧
    (t.faultSpot? marked = none ↔ marked (.root t) = false) ∧
    (∀ p ∈ t.spots, p.tree.damaged = marked p) ∧
    t.refusal? = ((t.faultSpot? marked).bind (·.tree.fault?)).map Fault.message ∧
    t.refusal? ≠ some "syntax error" ∧
    ∀ source, treeOfSource source = t → parse source ≠ .failed "syntax error" := by
  have found := faultSpotEq honest.covers
  have everywhere : Covers (fun _ => true) t.spots := fun p _ unmarked => by contradiction
  refine ⟨faultSpotLoops marked t, found, ?_, fun p here => firstOrdered (found ▸ here), ?_, ?_, ?_,
    neverUnexplained t, ?_⟩
  · rw [found, faultSpotEq everywhere]
  · rw [found, faultSpotNone honest]
  · intro p within
    rw [Bool.eq_iff_iff, Spot.damagedIff, honest p within]
  · rw [refusalEq, Tree.firstFault, found, faultSpotEq (damagedHonest t).covers]
  · intro source same failed
    have refused := refusedOfFailed failed
    rw [same] at refused
    exact neverUnexplained t refused

theorem firstFaultFoundDeeper :
    let sign (text : String) : Tree := .leaf none { kind := .sign, text }
    let lost : Tree := .leaf none
      { kind := .sign, text := ";", start := ⟨2, 7⟩, stop := ⟨2, 7⟩, missing := true }
    let t : Tree := .node none .program
      [.node none .packageDeclaration [sign "package", sign ";"],
        .node none .classBody [sign "\x7b", .node none .fieldDeclaration [sign "x", lost]],
        .node none .error [sign "\x7d"]]
    Honest (·.tree.damaged) t ∧
    (t.faultSpot? (·.tree.damaged)).map Spot.place = some [1, 1, 1] ∧
    t.refusal? = some "missing `;` at line 3, column 8" := by
  intro sign lost t
  -- The first tree is whole and passed over; the second fault stands less deep than the first.
  have honest := damagedHonest t
  obtain ⟨-, found, -, -, -, -, refused, -⟩ := firstFaultFound honest
  rw [found] at refused ⊢
  exact ⟨honest, rfl, refused⟩

end JavaAudit.Source
