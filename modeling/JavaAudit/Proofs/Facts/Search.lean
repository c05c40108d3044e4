import JavaAudit.Proofs.Facts.Survey

/-! The events of a tree are those that the reached spots bring forth one by one, in the order of the
spots. Only the public members are no events of the whole: each is one of the body that holds it. -/
namespace JavaAudit
open Source Tree

namespace Source.Spot

theorem scopeBelowEnters {p : Spot} {t : Tree} (i : Nat) (noField : p.tree.isField = false)
    (noVariable : p.isFieldVariable = false) :
    scopeBelow p.scope p.tree t = if p.enters t then some (child p i t).scope else none := by
  unfold scopeBelow enters
  split
  · rfl
  · split
    · next method =>
      obtain ⟨plain, named⟩ := plainMethod method
      simp [childScope plain, named]
    · cases declares : p.tree.declares? with
      | none => simp [noField, noVariable, childScope declares]
      | some declaration =>
        obtain ⟨kind, name⟩ := declaration
        by_cases body : t.isMemberBody = true
        · simp [noField, noVariable, body, childOwner declares body]
        · simp [noField, noVariable, body]

def found (p : Spot) : List Event :=
  if p.isFieldVariable then
    eventsOf (fun c => if c.role = some .value then some p.scope else none) p.tree.children
  else events p.scope p.tree

def inner (p : Spot) : List Event :=
  p.children.flatMap fun c => if p.enters c.tree then c.found else []

theorem innerEq {p : Spot} {search : Tree → List Event}
    (each : ∀ i t, search t = if p.enters t then (child p i t).found else []) :
    p.tree.children.flatMap search = p.inner := by
  have numbered : ∀ c ∈ p.children, search c.tree = if p.enters c.tree then c.found else [] := by
    intro c below
    obtain ⟨i, t, -, rfl⟩ := memChildren.mp below
    exact each i t
  rw [inner, ← List.flatMap_congr numbered, ← childrenTrees, List.flatMap_map]

theorem childFound {p : Spot} {i : Nat} {t : Tree} (noField : p.tree.isField = false) :
    (child p i t).found = events (child p i t).scope t := by
  simp [found, isFieldVariable, noField]

theorem variableTree {p : Spot} (isVariable : p.isFieldVariable = true) :
    ∃ r cs, p.tree = .node r .variableDeclarator cs := by
  cases p with
  | root t => cases isVariable
  | child f i t => exact isKindNode (Bool.and_eq_true_iff.mp isVariable).2

theorem innerVariable {p : Spot} (isVariable : p.isFieldVariable = true) :
    eventsOf (fun c => if c.role = some .value then some p.scope else none) p.tree.children =
      p.inner := by
  obtain ⟨r, cs, shape⟩ := variableTree isVariable
  have noField : p.tree.isField = false := by rw [shape]; rfl
  have enters : ∀ t, p.enters t = (t.role == some .value) := by
    intro t
    simp [enters, isVariable, shape, isField, isMethod, isKind, kind?]
  rw [eventsOfEq]
  refine innerEq fun i t => ?_
  rw [childFound noField, childScope (by rw [shape]; rfl), enters]
  by_cases value : t.role = some .value <;>
    simp [value, shape, opensAnonymous, isKind, kind?]

theorem innerField {p : Spot} (field : p.tree.isField = true) :
    valueEvents p.scope p.tree.children = p.inner := by
  obtain ⟨plain, named⟩ := plainField field
  have enters : ∀ t, p.enters t = t.isKind .variableDeclarator := by
    intro t
    obtain ⟨other, noMethod⟩ := fieldApart field
    simp [enters, field, other, noMethod]
  rw [valueEventsEq]
  refine innerEq fun i t => ?_
  rw [enters]
  by_cases declarator : t.isKind .variableDeclarator = true
  · simp [declarator, found, isFieldVariable, field, childScope plain, named]
  · simp [declarator]

theorem innerOther {p : Spot} (noField : p.tree.isField = false)
    (noVariable : p.isFieldVariable = false) :
    eventsOf (scopeBelow p.scope p.tree) p.tree.children = p.inner := by
  rw [eventsOfEq]
  refine innerEq fun i t => ?_
  rw [childFound noField, scopeBelowEnters i noField noVariable]
  cases p.enters t <;> rfl

theorem foundEq (p : Spot) :
    p.found = visit p.scope p.inner p.tree ++ outside p.tree p.inner := by
  cases isVariable : p.isFieldVariable with
  | true =>
    obtain ⟨r, cs, shape⟩ := variableTree isVariable
    rw [found, if_pos isVariable, innerVariable isVariable, shape]
    rfl
  | false =>
    have below : innerEvents p.scope p.tree = p.inner := by
      cases field : p.tree.isField with
      | true => simp [innerEvents, field, innerField field]
      | false => simp [innerEvents, field, innerOther field isVariable]
    rw [found, if_neg (by simp [isVariable]), eventsEq, below]

def own (p : Spot) : List Event := visit p.scope p.inner p.tree

def ownPlain (p : Spot) : List Event := p.own.filter fun e => !e.isMember

/-- What of it is seen by one who looks for the members of a body, told by the place of its type. -/
def shown (held : Option (List Nat)) (p : Spot) : List Event :=
  if p.holder?.map place = held then p.own else p.ownPlain

theorem ownMembers {p : Spot} (free : p.holder? = none) : p.ownPlain = p.own := by
  have noOwner : p.scope.owner = none := by simp [scope, owner?, free]
  refine List.filter_eq_self.mpr fun e mem => ?_
  simp [visitFree noOwner mem]

theorem shownInBody {p q : Spot} {i : Nat} {t : Tree}
    (body : (child p i t).ownBody?.isSome = true) (around : child p i t ∈ q.chain) :
    shown (p.holder?.map place) q = q.ownPlain := by
  unfold shown
  split
  · next same =>
    cases held : q.holder? with
    | none => exact (ownMembers held).symm
    | some d =>
      -- The owner of the members at `q` lies at `p` or below, the owner around `p` lies above.
      have deep := holderBelowBody body around d held
      cases outer : p.holder? with
      | none => simp [held, outer] at same
      | some e =>
        have high := (holderAround outer).2.1
        have places : d.place = e.place := by simpa [held, outer] using same
        simp only [depth, places] at deep high
        omega
  · rfl

theorem outsideFlatMap {α : Type} (t : Tree) (xs : List α) (f : α → List Event) :
    outside t (xs.flatMap f) = xs.flatMap fun x => outside t (f x) := by
  cases declares : t.declares?.isSome <;> simp [outside, declares, List.filter_flatMap]

theorem shownFree (q : Spot) : shown none q = q.ownPlain := by
  unfold shown
  split
  · next same => exact (ownMembers (Option.map_eq_none_iff.mp same)).symm
  · rfl

theorem shownPlain (held : Option (List Nat)) (q : Spot) :
    ((shown held q).filter fun e => !e.isMember) = q.ownPlain := by
  unfold shown
  split
  · rfl
  · simp [ownPlain]

theorem outsideShown {p q : Spot} {i : Nat} {t : Tree} (entered : p.enters t = true)
    (around : child p i t ∈ q.chain) :
    outside p.tree (shown ((child p i t).holder?.map place) q) = shown (p.holder?.map place) q := by
  cases declares : p.tree.declares?.isSome with
  | true =>
    have body : (child p i t).ownBody?.isSome = true := by
      rw [entersType declares] at entered
      simp [ownBody?, declares, entered]
    rw [shownInBody body around]
    simp [outside, declares, shownPlain]
  | false =>
    cases anonymous : p.tree.opensAnonymous && t.isKind .classBody with
    | true =>
      have body : (child p i t).ownBody?.isSome = true := by simp [ownBody?, declares, anonymous]
      rw [shownInBody body around]
      simp [outside, holderOfChild, declares, anonymous, shownFree]
    | false => simp [outside, holderOfChild, declares, anonymous]

theorem enteredShown {p c : Spot} (below : c ∈ p.children) (reached : p.reached = true)
    (whole : c.reached = true →
      c.found = (c.inside.filter Spot.reached).flatMap (shown (c.holder?.map place))) :
    (if p.enters c.tree then c.found else []) =
      (c.inside.filter Spot.reached).flatMap (shown (c.holder?.map place)) := by
  obtain ⟨i, t, -, rfl⟩ := memChildren.mp below
  split
  · next entered => exact whole (by simpa [Spot.reached, reached] using entered)
  · next refused =>
    have nothing : (child p i t).inside.filter Spot.reached = [] := by
      refine List.filter_eq_nil_iff.mpr fun q mem there => ?_
      have here := reachedAround (insideChain mem) there
      exact refused (Bool.and_eq_true_iff.mp here).2
    rw [nothing, List.flatMap_nil]

theorem foundShown (p : Spot) (reached : p.reached = true) :
    p.found = (p.inside.filter Spot.reached).flatMap (shown (p.holder?.map place)) := by
  induction p using induct with
  | step p ih =>
    have each : ∀ c ∈ p.children, outside p.tree (if p.enters c.tree then c.found else []) =
        (c.inside.filter Spot.reached).flatMap (shown (p.holder?.map place)) := by
      intro c below
      rw [enteredShown below reached (ih c below), outsideFlatMap]
      obtain ⟨i, t, -, rfl⟩ := memChildren.mp below
      refine List.flatMap_congr fun q mem => ?_
      obtain ⟨mem, there⟩ := List.mem_filter.mp mem
      have around := insideChain mem
      exact outsideShown (Bool.and_eq_true_iff.mp (reachedAround around there)).2 around
    rw [foundEq, inner, outsideFlatMap, List.flatMap_congr each, insideEq, ← inner]
    simp [reached, List.filter_flatMap, List.flatMap_assoc, shown, own]

def gives (p : Spot) : List Event := if p.reached then p.ownPlain else []

end Source.Spot

theorem eventsBySpot (tree : Tree) : events {} tree = tree.spots.flatMap Spot.gives := by
  have start : (Spot.root tree).found = events {} tree := rfl
  have free : (Spot.root tree).holder?.map Spot.place = none := rfl
  rw [← start, Spot.foundShown _ rfl, free, funext Spot.shownFree, Tree.spots]
  induction (Spot.root tree).inside with
  | nil => rfl
  | cons p ps ih =>
    rw [List.flatMap_cons, ← ih, Spot.gives]
    cases reached : p.reached <;> simp [reached]

theorem givesProject {β : Type} {f : Event → Option β} {g : Event.Tag} (sees : Sees f g)
    (other : g.isMember = false) (p : Spot) :
    p.gives.filterMap f = if p.reached then p.own.filterMap f else [] := by
  have blind : ∀ e : Event, e.isMember = true → f e = none := by
    refine fun e member => sees e ?_
    rintro rfl
    rw [Event.isMemberTag, other] at member
    cases member
  have plain : p.ownPlain.filterMap f = p.own.filterMap f := by
    rw [Spot.ownPlain]
    induction p.own with
    | nil => rfl
    | cons e es ih =>
      cases member : e.isMember with
      | true => simp [member, ih, blind e member]
      | false => simp [member, List.filterMap_cons, ih]
  rw [Spot.gives]
  split
  · exact plain
  · rfl

theorem projectAlong {β : Type} {f : Event → Option β} {g : Spot → Option β}
    (each : ∀ p : Spot, p.gives.filterMap f = (g p).toList) (ps : List Spot) :
    (ps.flatMap Spot.gives).filterMap f = ps.filterMap g := by
  rw [List.filterMap_flatMap, List.filterMap_eq_flatMap_toList, funext each]

section Listed

variable {β : Type} {file : String} {list : FileFacts → List β} {f : Event → Option β}
  (adds : ∀ facts e, list (FileFacts.add file none facts e) = list facts ++ (f e).toList)
include adds

theorem foldListed (facts : FileFacts) (es : List Event) :
    list (es.foldl (FileFacts.add file none) facts) = list facts ++ es.filterMap f := by
  induction es generalizing facts with
  | nil => simp
  | cons e es ih =>
    rw [List.foldl_cons, ih, adds]
    cases found : f e <;> simp [found]

theorem listedBySpot (start : list .empty = []) {g : Spot → Option β}
    (each : ∀ p : Spot, p.gives.filterMap f = (g p).toList) (tree : Tree) :
    list (factsOf tree file) = tree.spots.filterMap g := by
  rw [factsOfEvents, eventsBySpot, foldListed adds, projectAlong each, start, List.nil_append]

end Listed

end JavaAudit
