import JavaAudit.Proofs.Facts.Types
import JavaAudit.Proofs.Names

/-! Members belong to the innermost body around them: a method or a field is recorded for the type whose
body that is, and for no type if the body has no name. -/
namespace JavaAudit
open Source Tree

theorem addMethods (file : String) (f : FileFacts) (e : Event) :
    (f.add file none e).methods = f.methods ++ e.method?.toList := by
  cases e <;> simp [FileFacts.add, Event.method?]

namespace Source.Spot

def isRecorded (p : Spot) : Bool := p.reached && p.tree.isMethod && p.holder?.isSome

def methodAt? (p : Spot) : Option MethodFacts :=
  if p.reached && p.tree.isMethod then
    p.owner?.bind fun o => p.tree.kind?.map fun k => methodFacts o k p.tree
  else none

theorem givesMethods (p : Spot) : p.gives.filterMap Event.method? = p.methodAt?.toList := by
  rw [givesProject seesMethod rfl, own, methodAt?]
  cases reached : p.reached with
  | false => rfl
  | true =>
    cases shape : p.tree with
    | leaf r token => rfl
    | node r k cs =>
      rw [visitMethods]
      cases method : (Source.Tree.node r k cs).isMethod <;> cases owner : p.owner? <;>
        simp [scope, owner, kind?]

theorem methodsBySpot (tree : Tree) (file : String) :
    (factsOf tree file).methods = tree.spots.filterMap methodAt? :=
  listedBySpot (addMethods file) rfl givesMethods tree

theorem ownerOfHolder {p d : Spot} {kind : TypeKind} {name : String} (held : p.holder? = some d)
    (declares : d.tree.declares? = some (kind, name)) :
    p.owner? = some ⟨name, kind.isInterface⟩ := by
  simp [owner?, held, declares]

theorem holderDeclares {p d : Spot} (held : p.holder? = some d) :
    ∃ kind name, d.tree.declares? = some (kind, name) := by
  obtain ⟨⟨kind, name⟩, declares⟩ := Option.isSome_iff_exists.mp (holderAround held).2.2
  exact ⟨kind, name, declares⟩

theorem recordedIff (p : Spot) : p.isRecorded = p.methodAt?.isSome := by
  cases method : p.tree.isMethod with
  | false => simp [isRecorded, methodAt?, method]
  | true =>
    obtain ⟨r, k, cs, shape, -⟩ := methodNode method
    cases held : p.holder? with
    | none => simp [isRecorded, methodAt?, owner?, held]
    | some d =>
      obtain ⟨kind, name, declares⟩ := holderDeclares held
      rw [isRecorded, methodAt?, method, held, ownerOfHolder held declares, shape]
      cases p.reached <;> rfl

theorem methodAtSome {p : Spot} {m : MethodFacts} (found : p.methodAt? = some m) :
    ∃ d kind name k, p.holder? = some d ∧ d.tree.declares? = some (kind, name) ∧
      p.tree.kind? = some k ∧ m = methodFacts ⟨name, kind.isInterface⟩ k p.tree := by
  unfold methodAt? at found
  split at found
  · obtain ⟨o, owner, found⟩ := Option.bind_eq_some_iff.mp found
    obtain ⟨k, kindOf, rfl⟩ := Option.map_eq_some_iff.mp found
    obtain ⟨d, held, -⟩ := Option.bind_eq_some_iff.mp owner
    obtain ⟨kind, name, declares⟩ := holderDeclares held
    rw [ownerOfHolder held declares] at owner
    cases owner
    exact ⟨d, kind, name, k, held, declares, kindOf, rfl⟩
  · cases found

theorem innerShown {d : Spot} (reached : d.reached = true) (declares : d.tree.declares?.isSome = true) :
    d.inner = ((d.children.flatMap inside).filter Spot.reached).flatMap (shown (some d.place)) := by
  rw [inner, List.filter_flatMap, List.flatMap_assoc]
  refine List.flatMap_congr fun c below => ?_
  rw [enteredShown below reached (foundShown c)]
  obtain ⟨i, t, -, rfl⟩ := memChildren.mp below
  refine List.flatMap_congr fun q mem => ?_
  obtain ⟨mem, there⟩ := List.mem_filter.mp mem
  have here := reachedAround (insideChain mem) there
  have body : t.isMemberBody = true := by
    rw [← entersType declares]
    exact (Bool.and_eq_true_iff.mp here).2
  simp [holderOfChild, declares, body]

section Views

variable {β : Type} {f : Event → Option β} {g : Event.Tag}

theorem plainMembers (sees : Sees f g) (member : g.isMember = true) (p : Spot) :
    p.ownPlain.filterMap f = [] := by
  refine List.filterMap_eq_nil_iff.mpr fun e mem => sees e ?_
  rintro rfl
  have plain := (List.mem_filter.mp mem).2
  simp [Event.isMemberTag, member] at plain

theorem memInner (sees : Sees f g) (member : g.isMember = true) {tree : Tree} {d : Spot}
    (within : d ∈ tree.spots) (declares : d.declares?.isSome = true) {x : β} :
    x ∈ d.inner.filterMap f ↔
      ∃ p ∈ tree.spots, p.reached = true ∧ p.holder? = some d ∧ x ∈ p.own.filterMap f := by
  rw [declaresReached, Bool.and_eq_true] at declares
  rw [innerShown declares.1 declares.2, List.filterMap_flatMap, List.mem_flatMap]
  constructor
  · rintro ⟨p, mem, found⟩
    obtain ⟨mem, reached⟩ := List.mem_filter.mp mem
    have inside : p ∈ d.inside := memInside.mpr (.inr (List.mem_flatMap.mp mem))
    unfold shown at found
    split at found
    · next places =>
      obtain ⟨e, held, same⟩ := Option.map_eq_some_iff.mp places
      -- The place gives the depth, and around `p` there is one spot of each depth.
      obtain rfl : e = d :=
        eqOfDepth (holderAround held).1 (insideChain inside) (by rw [depth, depth, same])
      exact ⟨p, insideTrans within inside, reached, held, found⟩
    · simp [plainMembers sees member] at found
  · rintro ⟨p, mem, reached, held, found⟩
    obtain ⟨around, deeper, -⟩ := holderAround held
    have lower : p ∈ d.children.flatMap inside := by
      rcases memInside.mp (aroundInside mem around).2 with rfl | below
      · exact absurd deeper (Nat.lt_irrefl _)
      · exact List.mem_flatMap.mpr below
    refine ⟨p, List.mem_filter.mpr ⟨lower, reached⟩, ?_⟩
    simpa [shown, held] using found

end Views

theorem memPublicMethods {p : Spot} {n : String} :
    n ∈ p.own.filterMap Event.publicMethod? ↔
      p.tree.isMethod = true ∧ ∃ o, p.owner? = some o ∧ isVisible o p.tree = true ∧
        ((p.tree.inRole? .name).map text).getD o.name = n := by
  rw [own, visitPublicMethods]
  cases method : p.tree.isMethod <;> cases owner : p.owner? <;>
    simp [scope, owner, Option.filter_some]

theorem memPublicFields {p : Spot} {n : String} :
    n ∈ p.own.filterMap Event.publicField? ↔
      p.tree.isField = true ∧
        (∃ o, p.owner? = some o ∧ (p.tree.hasModifier "public" = true ∨ o.isInterface = true)) ∧
        ∃ v ∈ p.tree.children, v.isKind .variableDeclarator = true ∧
          ∃ node, v.inRole? .name = some node ∧ node.text = n := by
  rw [own, visitPublicFields]
  cases field : p.tree.isField with
  | false => simp
  | true =>
    cases owner : p.owner? with
    | none => simp [scope, owner]
    | some o =>
      rw [scope, owner, Option.filter_some]
      cases visible : p.tree.hasModifier "public" || o.isInterface with
      | false => simp_all
      | true =>
        have either := Bool.or_eq_true_iff.mp visible
        simp only [Option.some.injEq, exists_eq_left', either, true_and, if_true, Option.elim_some,
          List.mem_map, List.mem_filterMap, List.mem_filter]
        constructor
        · rintro ⟨node, ⟨v, ⟨mem, kind⟩, named⟩, same⟩
          exact ⟨v, mem, kind, node, named, same⟩
        · rintro ⟨v, mem, kind, node, named, same⟩
          exact ⟨node, ⟨v, ⟨mem, kind⟩, named⟩, same⟩

section Holders

variable {tree : Tree} {d : Spot} {kind : TypeKind} {name : String} (within : d ∈ tree.spots)
  (declares : d.declares? = some (kind, name))
include within declares

theorem memInnerMethods {n : String} :
    n ∈ d.inner.filterMap Event.publicMethod? ↔
      ∃ p ∈ tree.spots, p.reached = true ∧ p.holder? = some d ∧ p.tree.isMethod = true ∧
        (p.tree.hasModifier "public" = true ∨
          kind.isInterface = true ∧ p.tree.hasModifier "private" = false) ∧
        ((p.tree.inRole? .name).map text).getD name = n := by
  rw [memInner seesPublicMethod rfl within (by rw [declares]; rfl)]
  refine exists_congr fun p => and_congr_right fun _ => and_congr_right fun _ =>
    and_congr_right fun held => ?_
  rw [memPublicMethods, ownerOfHolder held (declaresTree declares)]
  simp [isVisible]

theorem memInnerFields {n : String} :
    n ∈ d.inner.filterMap Event.publicField? ↔
      ∃ p ∈ tree.spots, p.reached = true ∧ p.holder? = some d ∧ p.tree.isField = true ∧
        (p.tree.hasModifier "public" = true ∨ kind.isInterface = true) ∧
        ∃ v ∈ p.tree.children, v.isKind .variableDeclarator = true ∧
          ∃ node, v.inRole? .name = some node ∧ node.text = n := by
  rw [memInner seesPublicField rfl within (by rw [declares]; rfl)]
  refine exists_congr fun p => and_congr_right fun _ => and_congr_right fun _ =>
    and_congr_right fun held => ?_
  rw [memPublicFields, ownerOfHolder held (declaresTree declares)]
  simp

end Holders

end Source.Spot

def Source.Tree.Marked (word : String) (t : Tree) : Prop :=
  ∃ m ∈ t.children, m.isKind .modifiers = true ∧ ∃ w ∈ m.children, w.isLeaf word = true

theorem markedIff {word : String} {t : Tree} : t.hasModifier word = true ↔ t.Marked word := by
  simp [hasModifier, Marked]

theorem interfaceIff {kind : TypeKind} :
    kind.isInterface = true ↔ kind = .interface ∨ kind = .annotationType := by
  cases kind <;> simp [TypeKind.isInterface]

theorem membersExact (tree : Tree) (file : String) :
    List.Forall₂
      (fun (p : Spot) (m : MethodFacts) => ∃ d kind name, p.holder? = some d ∧
        d.tree.declares? = some (kind, name) ∧ m.owner = name ∧
        m.name = ((p.tree.inRole? .name).map text).getD name ∧
        (m.isConstructor = true ↔ p.tree.isKind .methodDeclaration = false) ∧
        m.parameterCount = p.tree.parameters.length ∧ m.lineStart = p.tree.start.line ∧
        m.lineEnd = p.tree.stop.line ∧ m.complexity = 1 + p.tree.branches)
      (tree.spots.filter Spot.isRecorded)
      (factsOf tree file).methods ∧
    List.Forall₂
      (fun (d : Spot) (t : TypeInfo) => ∃ kind name, d.tree.declares? = some (kind, name) ∧
        t.simpleName = name ∧
        (∀ n, n ∈ t.publicMethods ↔ ∃ p ∈ tree.spots, p.reached = true ∧ p.holder? = some d ∧
          p.tree.isMethod = true ∧
          (p.tree.Marked "public" ∨
            (kind = .interface ∨ kind = .annotationType) ∧ ¬ p.tree.Marked "private") ∧
          ((p.tree.inRole? .name).map text).getD name = n) ∧
        (∀ n, n ∈ t.publicFields ↔ ∃ p ∈ tree.spots, p.reached = true ∧ p.holder? = some d ∧
          p.tree.isField = true ∧
          (p.tree.Marked "public" ∨ kind = .interface ∨ kind = .annotationType) ∧
          ∃ v ∈ p.tree.children, v.isKind .variableDeclarator = true ∧
            ∃ node, v.inRole? .name = some node ∧ node.text = n))
      (tree.spots.filter fun d => d.reached && d.tree.declares?.isSome)
      (factsOf tree file).types ∧
    ∀ (t : Tree) kind name, t.declares? = some (kind, name) ↔
      ∃ k, t.kind? = some k ∧ (k, kind) ∈ typeKinds ∧ (t.inRole? .name).map text = some name := by
  refine ⟨?_, ?_, fun t kind name => declaresIff⟩
  · rw [Spot.methodsBySpot, List.filter_congr fun p _ => Spot.recordedIff p]
    refine listedBy fun p _ m found => ?_
    obtain ⟨d, kind, name, k, held, declares, kindOf, rfl⟩ := Spot.methodAtSome found
    refine ⟨d, kind, name, held, declares, rfl, rfl, ?_, rfl, rfl, rfl, rfl⟩
    simp [methodFacts, isKind, kindOf]
  · rw [typesBySpot, List.filter_congr fun d _ => typeAtSome tree file d]
    refine listedBy fun d within t found => ?_
    obtain ⟨⟨kind, name⟩, declares, rfl⟩ := Option.map_eq_some_iff.mp found
    refine ⟨kind, name, Spot.declaresTree declares, rfl, fun n => ?_, fun n => ?_⟩
    · simp only [← markedIff, ← interfaceIff, Bool.not_eq_true]
      exact NameSet.memOfList.trans (Spot.memInnerMethods within declares)
    · simp only [← markedIff, ← interfaceIff]
      exact NameSet.memOfList.trans (Spot.memInnerFields within declares)

theorem membersExactAllKinds :
    let tree := treeOfSource ("class A\x7bpublic int x;A()\x7bnew B()\x7bvoid g()\x7b\x7d\x7d;" ++
      "class D\x7bpublic void h()\x7b\x7d\x7d\x7d\x7denum E\x7bX\x7bvoid k()\x7b\x7d\x7d\x7d" ++
      "interface I\x7bvoid n();private void s()\x7b\x7d\x7d@interface N\x7bint Z=2;\x7d" ++
      "record R()\x7bpublic R\x7b\x7d\x7d")
    (factsOf tree "A.java").methods.map (fun m => (m.owner, m.name)) =
      [("A", "A"), ("D", "h"), ("I", "n"), ("I", "s"), ("R", "R")] ∧
    (factsOf tree "A.java").types.map
        (fun t => (t.simpleName, t.publicMethods.toList, t.publicFields.toList)) =
      [("A", [], ["x"]), ("D", ["h"], []), ("E", [], []), ("I", ["n"], []), ("N", [], ["Z"]),
        ("R", ["R"], [])] := by
  intro tree
  have shown := shownBy (membersExact tree "A.java").1 (f := fun p => p.owner?.map fun o =>
    (o.name, ((p.tree.inRole? .name).map text).getD o.name)) (g := fun m => (m.owner, m.name))
  rw [shown, factsOfEvents]
  · decide +kernel
  · intro p m shown
    obtain ⟨d, kind, name, held, declares, owner, named, -⟩ := shown
    rw [Spot.ownerOfHolder held declares, owner, named, Option.map_some]

end JavaAudit
