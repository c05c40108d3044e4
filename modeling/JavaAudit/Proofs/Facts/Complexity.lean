import JavaAudit.Proofs.Facts.Members
import JavaAudit.Proofs.Source.Nesting

/-! Each branch point is counted once. A method counts the branch points below it up to the next type,
and the places where members may stand leave no room for a second recorded method in between. -/
namespace JavaAudit
open Source Tree

namespace Source.Spot

def isApart (p : Spot) : Bool := p.tree.kind?.any isMeasuredApart

/-- Whether a spot lies below this one and no type that is measured apart is declared in between. -/
def covers (p : Spot) : Spot → Bool
  | root _ => false
  | child q _ _ => q.place == p.place || (!q.isApart && p.covers q)

theorem deeper {p b : Spot} {i : Nat} {t : Tree} (around : child p i t ∈ b.chain) :
    p.depth < b.depth := by
  have := depthAround around
  rw [depthChild] at this
  omega

theorem placeApart {p q : Spot} (less : p.depth < q.depth) : (q.place == p.place) = false := by
  refine beq_false_of_ne fun same => ?_
  rw [depth, depth, same] at less
  exact Nat.lt_irrefl _ less

theorem coversThrough {p b : Spot} {i : Nat} {t : Tree} (around : child p i t ∈ b.chain) :
    p.covers b = (b.place == (child p i t).place ||
      (!(child p i t).isApart && (child p i t).covers b)) := by
  induction b with
  | root u => cases List.mem_singleton.mp around
  | child q j u ih =>
    rcases List.mem_cons.mp around with same | around
    · cases same
      simp [covers]
    · have below := placeApart (deeper around)
      have here : ((child q j u).place == (child p i t).place) = false :=
        placeApart (Nat.lt_of_le_of_lt (depthAround around) (by simp))
      rw [covers, covers, below, here, ih around]
      -- The way up from `b` passes through the child, at once or later.
      by_cases same : q.place = (child p i t).place
      · obtain rfl := eqOfDepth (selfInChain q) around (by rw [depth, depth, same])
        simp
      · rw [beq_false_of_ne same]
        cases q.isApart <;> cases (child p i t).isApart <;> rfl

theorem branchPlain {p : Spot} (apart : p.isApart = true) : p.tree.isBranch = false := by
  rw [isApart] at apart
  cases shape : p.tree with
  | leaf r token => rfl
  | node r k cs =>
    simp only [shape, kind?, Option.any_some, isMeasuredApart, Bool.or_eq_true, beq_iff_eq] at apart
    rcases apart with ((rfl | rfl) | rfl) | rfl <;> rfl

theorem methodPlain {p : Spot} (method : p.tree.isMethod = true) :
    p.isApart = false ∧ p.tree.isBranch = false := by
  obtain ⟨r, k, cs, shape, treated⟩ := methodNode method
  rw [isApart, shape]
  cases k <;> cases treated <;> exact ⟨rfl, rfl⟩

def counts (p b : Spot) : Bool := b.tree.isBranch && (b.place == p.place || p.covers b)

theorem branchesEq (p : Spot) :
    p.tree.branches = if p.isApart then 0 else
      (if p.tree.isBranch then 1 else 0) + branchesOf (p.children.map tree) := by
  rw [childrenTrees, isApart]
  cases p.tree with
  | leaf r token => rfl
  | node r k cs => rfl

theorem branchesOfCounted {cs : List Spot} {f : Spot → Bool}
    (each : ∀ c ∈ cs, c.tree.branches = c.inside.countP f) :
    branchesOf (cs.map tree) = (cs.flatMap inside).countP f := by
  induction cs with
  | nil => rfl
  | cons c cs ih =>
    rw [List.map_cons, branchesOf, each c List.mem_cons_self,
      ih fun d mem => each d (List.mem_cons_of_mem _ mem), List.flatMap_cons, List.countP_append]

theorem countsThrough {p b : Spot} {i : Nat} {t : Tree} (mem : b ∈ (child p i t).inside) :
    p.counts b = (!(child p i t).isApart && (child p i t).counts b) := by
  have around := insideChain mem
  rw [counts, counts, coversThrough around, placeApart (deeper around)]
  cases apart : (child p i t).isApart with
  | false => simp
  | true =>
    -- All that is left is the child itself, which is no branch point.
    by_cases same : b.place = (child p i t).place
    · obtain rfl := eqOfDepth (selfInChain b) around (by rw [depth, depth, same])
      simpa using branchPlain apart
    · simp [beq_false_of_ne same]

theorem branchesCounted (p : Spot) :
    p.tree.branches = p.inside.countP fun b => !p.isApart && p.counts b := by
  induction p using induct with
  | step p ih =>
    rw [branchesEq, insideEq]
    cases apart : p.isApart with
    | true => simp
    | false =>
      have each : ∀ c ∈ p.children, c.tree.branches = c.inside.countP p.counts := by
        intro c below
        rw [ih c below]
        obtain ⟨i, t, -, rfl⟩ := memChildren.mp below
        exact List.countP_congr fun b mem => by rw [countsThrough mem]
      have self : p.counts p = p.tree.isBranch := by simp [counts]
      simp [branchesOfCounted each, List.countP_cons, self, Nat.add_comm]

theorem placesDistinct (p : Spot) : (p.inside.map place).Nodup :=
  List.pairwise_map.mpr ((insideOrdered p).imp Before.apart)

theorem eqOfPlace {tree : Tree} {p q : Spot} (left : p ∈ tree.spots) (right : q ∈ tree.spots)
    (same : p.place = q.place) : p = q :=
  List.inj_on_of_nodup_map (placesDistinct (root tree)) left right same

theorem coversAround {p b : Spot} (covered : p.covers b = true) :
    ∃ a ∈ b.chain, a.place = p.place ∧ a.depth < b.depth := by
  induction b with
  | root t => cases covered
  | child q i t ih =>
    rw [covers, Bool.or_eq_true, Bool.and_eq_true] at covered
    rcases covered with same | ⟨-, covered⟩
    · exact ⟨q, by simp [chain], beq_iff_eq.mp same, by simp⟩
    · obtain ⟨a, around, same, less⟩ := ih covered
      exact ⟨a, List.mem_cons_of_mem _ around, same, by rw [depthChild]; omega⟩

theorem coversInside {tree : Tree} {p b : Spot} (left : p ∈ tree.spots) (right : b ∈ tree.spots)
    (covered : p.covers b = true) : p ∈ b.chain ∧ p.depth < b.depth := by
  obtain ⟨a, around, same, less⟩ := coversAround covered
  obtain rfl := eqOfPlace (aroundInside right around).1 left same
  exact ⟨around, less⟩

theorem branchesCovered {tree : Tree} {p : Spot} (within : p ∈ tree.spots)
    (method : p.tree.isMethod = true) :
    p.tree.branches = tree.spots.countP fun b => b.tree.isBranch && p.covers b := by
  obtain ⟨whole, plain⟩ := methodPlain method
  rw [branchesCounted, List.countP_eq_length_filter, List.countP_eq_length_filter]
  have first := (placesDistinct p).of_map.filter fun b => !p.isApart && p.counts b
  have second := (placesDistinct (root tree)).of_map.filter fun b => b.tree.isBranch && p.covers b
  refine List.Perm.length_eq ((List.perm_ext_iff_of_nodup first second).mpr fun b => ?_)
  simp only [List.mem_filter, counts, whole, Bool.not_false, Bool.true_and, Bool.and_eq_true,
    Bool.or_eq_true, beq_iff_eq]
  constructor
  · rintro ⟨mem, branch, same | covered⟩
    · obtain rfl := eqOfPlace (insideTrans within mem) within same
      simp [plain] at branch
    · exact ⟨insideTrans within mem, branch, covered⟩
  · rintro ⟨mem, branch, covered⟩
    exact ⟨(aroundInside mem (coversInside within mem covered).1).2, branch, .inr covered⟩

theorem coversBetween {p a b : Spot} (covered : p.covers b = true) (around : a ∈ b.chain)
    (less : p.depth < a.depth) : p.covers a = true := by
  induction b with
  | root t => cases covered
  | child q i t ih =>
    rcases List.mem_cons.mp around with rfl | around
    · exact covered
    · rw [covers, placeApart (Nat.lt_of_lt_of_le less (depthAround around)), Bool.false_or,
        Bool.and_eq_true] at covered
      exact ih covered.2 around

theorem placeNoMethod {k j : Kind} {parents : List Kind} (places : k.places? = some parents)
    (listed : j ∈ parents) : treatment j ≠ .method := by
  have checked : ∀ k : Kind, k.places?.all (·.all fun j => treatment j != .method) = true := by
    intro k
    cases k <;> rfl
  have all := checked k
  rw [places] at all
  exact bne_iff_ne.mp (List.all_eq_true.mp all j listed)

theorem coverStep {tree : Tree} (nested : tree.Nested) {p b : Spot} {k : Kind} {parents : List Kind}
    (left : p ∈ tree.spots) (method : p.tree.isMethod = true) (right : b ∈ tree.spots)
    (covered : p.covers b = true) (kind : b.tree.kind? = some k)
    (places : k.places? = some parents) :
    ∃ q i j, b = child q i b.tree ∧ q ∈ tree.spots ∧ q.tree.kind? = some j ∧ j ∈ parents ∧
      isMeasuredApart j = false ∧ p.covers q = true := by
  cases b with
  | root t => cases covered
  | child q i t =>
    obtain ⟨j, parentKind, holds⟩ := placedBelow nested right kind
    have listed : j ∈ parents := by simpa [Kind.mayHold, places] using holds
    have within : q ∈ tree.spots := (memSpots.mp right).1
    rw [covers, Bool.or_eq_true, Bool.and_eq_true, beq_iff_eq] at covered
    rcases covered with same | ⟨whole, covered⟩
    · obtain rfl := eqOfPlace within left same
      obtain ⟨r, k, cs, shape, treated⟩ := methodNode method
      rw [shape] at parentKind
      cases parentKind
      exact absurd treated (placeNoMethod places listed)
    · refine ⟨q, i, j, rfl, within, parentKind, listed, ?_, covered⟩
      simpa [isApart, parentKind] using whole

theorem methodPlaces {k : Kind} (treated : treatment k = .method) :
    k.places? = some [.classBody, .interfaceBody, .enumBodyDeclarations, .program] := by
  cases k <;> cases treated <;> rfl

theorem anonymousHolder {q r : Spot} {i j : Nat} {t : Tree} {k : Kind}
    (outer : q.tree.kind? = some k) (opens : k = .objectCreation ∨ k = .enumConstant)
    (inner : r.tree.kind? = some .classBody) (below : r = child q i r.tree) :
    (child r j t).holder? = none := by
  obtain ⟨_, _, body⟩ := isKindNode (beq_iff_eq.mpr inner)
  have plain : q.tree.declares? = none ∧ q.tree.opensAnonymous = true := by
    rcases opens with rfl | rfl
    all_goals
      obtain ⟨_, _, shape⟩ := isKindNode (beq_iff_eq.mpr outer)
      rw [shape]
      exact ⟨rfl, rfl⟩
  have free : r.holder? = none := by
    rw [below, holderOfChild, plain.1, plain.2, body]
    rfl
  rw [holderOfChild, body, free]
  rfl

theorem noneCovered {tree : Tree} (nested : tree.Nested) {p m : Spot} (left : p ∈ tree.spots)
    (method : p.tree.isMethod = true) (right : m ∈ tree.spots) (recorded : m.isRecorded = true) :
    p.covers m = false := by
  simp only [isRecorded, Bool.and_eq_true] at recorded
  obtain ⟨⟨-, member⟩, held⟩ := recorded
  obtain ⟨r, k, cs, shape, treated⟩ := methodNode member
  refine Bool.eq_false_iff.mpr fun covered => ?_
  have step := @coverStep tree nested p
  obtain ⟨body, i, j, here, within, kind, listed, -, covered⟩ :=
    step left method right covered (by rw [shape]; rfl) (methodPlaces treated)
  simp only [List.mem_cons, List.not_mem_nil, or_false] at listed
  rcases listed with rfl | rfl | rfl | rfl
  -- The body of a class or a record lies in what is measured apart, any other class body has no name.
  · obtain ⟨q, _, _, above, -, outer, listed, whole, -⟩ := step left method within covered kind rfl
    simp only [List.mem_cons, List.not_mem_nil, or_false] at listed
    rcases listed with rfl | rfl | opens
    · cases whole
    · cases whole
    · rw [here, anonymousHolder outer opens kind above] at held
      cases held
  · obtain ⟨q, _, _, -, -, -, listed, whole, -⟩ := step left method within covered kind rfl
    cases List.mem_singleton.mp listed
    cases whole
  · obtain ⟨q, _, _, -, within, kind, listed, -, covered⟩ :=
      step left method within covered kind rfl
    cases List.mem_singleton.mp listed
    obtain ⟨_, _, _, -, -, -, listed, whole, -⟩ := step left method within covered kind rfl
    cases List.mem_singleton.mp listed
    cases whole
  -- A whole source lies in nothing.
  · obtain ⟨_, _, _, -, -, -, listed, -⟩ := step left method within covered kind rfl
    cases listed

theorem recordedMethod {p : Spot} (recorded : p.isRecorded = true) : p.tree.isMethod = true := by
  simp only [isRecorded, Bool.and_eq_true] at recorded
  exact recorded.1.2

theorem coverUnique {tree : Tree} (nested : tree.Nested) {p m b : Spot} (left : p ∈ tree.spots)
    (first : p.isRecorded = true) (right : m ∈ tree.spots) (second : m.isRecorded = true)
    (within : b ∈ tree.spots) (here : p.covers b = true) (there : m.covers b = true) : p = m := by
  obtain ⟨above, -⟩ := coversInside left within here
  obtain ⟨beside, -⟩ := coversInside right within there
  rcases Nat.lt_trichotomy p.depth m.depth with less | same | more
  · have free := noneCovered nested left (recordedMethod first) right second
    rw [coversBetween here beside less] at free
    cases free
  · exact eqOfDepth above beside same
  · have free := noneCovered nested right (recordedMethod second) left first
    rw [coversBetween there above more] at free
    cases free

end Source.Spot

theorem countEither {α : Type} {f g : α → Bool} {xs : List α}
    (apart : ∀ x ∈ xs, f x = true → g x = false) :
    xs.countP (fun x => f x || g x) = xs.countP f + xs.countP g := by
  induction xs with
  | nil => rfl
  | cons x xs ih =>
    have rest := ih fun y mem => apart y (List.mem_cons_of_mem _ mem)
    have here := apart x List.mem_cons_self
    cases first : f x <;> cases second : g x <;> simp_all <;> omega

theorem countClaims {α β : Type} {claims : α → β → Bool} {xs : List α} {ys : List β}
    (apart : xs.Pairwise fun x x' => ∀ y ∈ ys, claims x y = true → claims x' y = false) :
    (xs.map fun x => 1 + ys.countP (claims x)).foldr (· + ·) 0 =
      xs.length + ys.countP fun y => xs.any (claims · y) := by
  induction xs with
  | nil => simp
  | cons x xs ih =>
    obtain ⟨here, rest⟩ := List.pairwise_cons.mp apart
    have first : ∀ y ∈ ys, claims x y = true → xs.any (claims · y) = false := by
      intro y mem claimed
      refine List.any_eq_false.mpr fun x' mem' => ?_
      simp [here x' mem' y mem claimed]
    simp only [List.map_cons, List.foldr_cons, ih rest, List.any_cons, countEither first,
      List.length_cons]
    omega

namespace Source.Spot

theorem complexityCovered {tree : Tree} {file : String} :
    List.Forall₂
      (fun (p : Spot) (m : MethodFacts) =>
        m.complexity = 1 + tree.spots.countP fun b => b.tree.isBranch && p.covers b)
      (tree.spots.filter isRecorded) (factsOf tree file).methods := by
  rw [methodsBySpot, List.filter_congr fun p _ => recordedIff p]
  refine listedBy fun p within m found => ?_
  have recorded : p.isRecorded = true := by rw [recordedIff, found]; rfl
  obtain ⟨_, _, _, _, -, -, -, rfl⟩ := methodAtSome found
  rw [← branchesCovered within (recordedMethod recorded)]
  rfl

theorem recordedApart {tree : Tree} (nested : tree.Nested) :
    (tree.spots.filter isRecorded).Pairwise fun p q => ∀ b ∈ tree.spots,
      (b.tree.isBranch && p.covers b) = true → (b.tree.isBranch && q.covers b) = false := by
  have ordered := (insideOrdered (root tree)).filter isRecorded
  refine ordered.imp_of_mem fun {p q} left right earlier b within here => ?_
  obtain ⟨left, first⟩ := List.mem_filter.mp left
  obtain ⟨right, second⟩ := List.mem_filter.mp right
  refine Bool.eq_false_iff.mpr fun there => earlier.apart ?_
  rw [Bool.and_eq_true] at here there
  rw [coverUnique nested left first right second within here.2 there.2]

end Source.Spot

def branchKinds : List Kind :=
  [.ifStatement, .whileStatement, .forStatement, .enhancedFor, .doStatement, .catchClause,
    .switchGroup, .switchRule, .ternary]

theorem branchIff {t : Tree} :
    t.isBranch = true ↔ (∃ k ∈ branchKinds, t.kind? = some k) ∨
      t.kind? = some .binary ∧ ∃ o, t.inRole? .operator = some o ∧
        (o.isLeaf "&&" = true ∨ o.isLeaf "||" = true) := by
  rw [isBranch]
  cases shape : t.kind? with
  | none => simp
  | some k => cases k <;> simp [branchKinds, Option.any_eq_true]

theorem apartIff {p : Spot} :
    p.isApart = true ↔ ∃ k ∈ [Kind.classDeclaration, .interfaceDeclaration, .enumDeclaration,
      .recordDeclaration], p.tree.kind? = some k := by
  rw [Spot.isApart]
  cases shape : p.tree.kind? with
  | none => simp
  | some k => cases k <;> simp [isMeasuredApart]

theorem complexityCountsOnce {source : String} {tree : Tree} (parsed : parse source = .parsed tree)
    (file : String) :
    List.Forall₂
      (fun (p : Spot) (m : MethodFacts) =>
        m.complexity = 1 + tree.spots.countP fun b => b.tree.isBranch && p.covers b)
      (tree.spots.filter Spot.isRecorded) (factsOf tree file).methods ∧
    (factsOf tree file).totalComplexity =
      (factsOf tree file).methods.length + tree.spots.countP (fun b => b.tree.isBranch &&
        tree.spots.any fun p => p.isRecorded && p.covers b) ∧
    (∀ b ∈ tree.spots, b.tree.isBranch = true →
      (tree.spots.any fun p => p.isRecorded && p.covers b) = true →
      ∃! p, p ∈ tree.spots ∧ p.isRecorded = true ∧ p.covers b = true) ∧
    (∀ t : Tree, t.isBranch = true ↔ (∃ k ∈ branchKinds, t.kind? = some k) ∨
      t.kind? = some .binary ∧ ∃ o, t.inRole? .operator = some o ∧
        (o.isLeaf "&&" = true ∨ o.isLeaf "||" = true)) ∧
    (∀ p : Spot, p.isApart = true ↔ ∃ k ∈ [Kind.classDeclaration, .interfaceDeclaration,
      .enumDeclaration, .recordDeclaration], p.tree.kind? = some k) := by
  have nested := parsedNested parsed
  have listed := @Spot.complexityCovered tree file
  refine ⟨listed, ?_, fun b within _ some => ?_, fun t => branchIff, fun p => apartIff⟩
  · have values : (tree.spots.filter Spot.isRecorded).map (fun p =>
        1 + tree.spots.countP fun b => b.tree.isBranch && p.covers b) =
        (factsOf tree file).methods.map MethodFacts.complexity := by
      rw [← List.forall₂_eq_eq_eq, List.forall₂_map_left_iff, List.forall₂_map_right_iff]
      exact listed.imp fun _ _ same => same.symm
    rw [FileFacts.totalComplexity, ← values, ← listed.length_eq,
      countClaims (Spot.recordedApart nested)]
    congr 2
    funext b
    rw [List.any_filter, List.and_any_distrib_left]
    congr 1
    funext p
    exact Bool.and_left_comm _ _ _
  · obtain ⟨p, left, found⟩ := List.any_eq_true.mp some
    obtain ⟨first, here⟩ := Bool.and_eq_true_iff.mp found
    refine ⟨p, ⟨left, first, here⟩, ?_⟩
    intro m claimed
    obtain ⟨right, second, there⟩ := claimed
    exact Spot.coverUnique nested right second left first within there here

theorem complexityCountsOnceInnerClasses :
    let source := "class A\x7bvoid f()\x7bnew B()\x7bvoid g()\x7bif(a)b();\x7d\x7d;" ++
      "class C\x7bvoid h()\x7bwhile(a&&b)switch(c)\x7bdefault->d();\x7d\x7d\x7d\x7d\x7d"
    let tree := treeOfSource source
    parse source = .parsed tree ∧
      (factsOf tree "A.java").methods.map (fun m => (m.name, m.complexity)) = [("f", 2), ("h", 4)] ∧
      (tree.spots.countP fun b => b.tree.isBranch &&
        tree.spots.any fun p => p.isRecorded && p.covers b) = 4 ∧
      (factsOf tree "A.java").totalComplexity = 6 := by
  intro source tree
  obtain ⟨whole, methods, covered⟩ : tree.damaged = false ∧
      (factsOf tree "A.java").methods.map (fun m => (m.name, m.complexity)) = [("f", 2), ("h", 4)] ∧
      (tree.spots.countP fun b => b.tree.isBranch &&
        tree.spots.any fun p => p.isRecorded && p.covers b) = 4 := by
    rw [factsOfEvents]
    decide +kernel
  have parsed : parse source = .parsed tree := parsedOfWhole whole
  have count : (factsOf tree "A.java").methods.length = 2 := by
    simpa using congrArg List.length methods
  refine ⟨parsed, methods, covered, ?_⟩
  rw [(complexityCountsOnce parsed "A.java").2.1, count, covered]

end JavaAudit
