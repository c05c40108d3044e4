import JavaAudit.Proofs.Facts.Search
import JavaAudit.Source.Parse
import Mathlib.Data.List.Forall2
import Mathlib.Data.List.Induction

/-! The types of a file are the named declarations at the reached spots of its tree, in the order of the
spots. Each is named by the types around it and by the package that was named last before it. -/
namespace JavaAudit
open Source Tree

section Adding

variable (file : String)

theorem addPackage (f : FileFacts) (e : Event) :
    (f.add file none e).package = e.package?.getD f.package := by
  cases e <;> rfl

theorem addTypes (f : FileFacts) (e : Event) :
    (f.add file none e).types = f.types ++ (e.declared?.map (·.toTypeInfo f.package file)).toList := by
  cases e <;> simp [FileFacts.add, Event.declared?]

theorem foldPackage (f : FileFacts) (es : List Event) :
    (es.foldl (FileFacts.add file none) f).package =
      (es.filterMap Event.package?).getLast?.getD f.package := by
  induction es generalizing f with
  | nil => rfl
  | cons e es ih =>
    rw [List.foldl_cons, ih, addPackage]
    cases named : e.package? with
    | none => simp [named]
    | some name => simp [named, List.getLast?_cons]

theorem foldTypes {f : FileFacts} {es : List Event} (unnamed : es.filterMap Event.package? = []) :
    (es.foldl (FileFacts.add file none) f).types =
      f.types ++ (es.filterMap Event.declared?).map (·.toTypeInfo f.package file) := by
  induction es generalizing f with
  | nil => simp
  | cons e es ih =>
    obtain ⟨first, rest⟩ : e.package? = none ∧ es.filterMap Event.package? = [] := by
      simpa using unnamed
    rw [List.foldl_cons, ih rest, addTypes, addPackage, first]
    cases found : e.declared? <;> simp [found]

theorem foldSameTypes {f : FileFacts} {es : List Event}
    (undeclared : es.filterMap Event.declared? = []) :
    (es.foldl (FileFacts.add file none) f).types = f.types := by
  induction es generalizing f with
  | nil => rfl
  | cons e es ih =>
    obtain ⟨first, rest⟩ : e.declared? = none ∧ es.filterMap Event.declared? = [] := by
      simpa using undeclared
    simp [ih rest, addTypes, first]

end Adding

namespace Source.Spot

def packageName? (p : Spot) : Option String := if p.reached then p.tree.packageName? else none

def declares? (p : Spot) : Option (TypeKind × String) :=
  if p.reached then p.tree.declares? else none

theorem givesPackages (p : Spot) : p.gives.filterMap Event.package? = p.packageName?.toList := by
  rw [givesProject seesPackage rfl, own, visitPackages, packageName?]
  split <;> rfl

theorem givesDeclared (p : Spot) :
    p.gives.filterMap Event.declared? =
      (p.declares?.map fun (kind, name) => declaredIn p.scope kind name p.tree p.inner).toList := by
  rw [givesProject seesDeclared rfl, own, visitDeclared, declares?]
  split <;> rfl

theorem packageApart {p : Spot} {name : String} (named : p.packageName? = some name) :
    p.declares? = none := by
  unfold packageName? at named
  split at named
  · rw [Tree.packageName?] at named
    split at named
    · next kind =>
      obtain ⟨r, cs, shape⟩ := isKindNode kind
      simp [declares?, Tree.declares?, shape, kind?, declaredKind?]
    · cases named
  · cases named

end Source.Spot

def inForce (before : List Spot) : String :=
  (before.filterMap Spot.packageName?).getLast?.getD defaultPackage

def Source.Tree.packageAt (t : Tree) (p : Spot) : String :=
  inForce (t.spots.takeWhile fun q => q.place != p.place)

theorem packageAtEq {t : Tree} {p : Spot} {before after : List Spot}
    (split : t.spots = before ++ p :: after) : t.packageAt p = inForce before := by
  have order := Spot.insideOrdered (Spot.root t)
  rw [← Tree.spots, split, List.pairwise_append] at order
  have earlier : ∀ q ∈ before, (q.place != p.place) = true := by
    intro q mem
    exact bne_iff_ne.mpr (order.2.2 q mem p List.mem_cons_self).apart
  rw [packageAt, split, List.takeWhile_append_of_pos earlier]
  simp

def typeAt? (tree : Tree) (file : String) (p : Spot) : Option TypeInfo :=
  p.declares?.map fun (kind, name) =>
    (declaredIn p.scope kind name p.tree p.inner).toTypeInfo (tree.packageAt p) file

theorem typesBySpot (tree : Tree) (file : String) :
    (factsOf tree file).types = tree.spots.filterMap (typeAt? tree file) := by
  -- The facts that a first part of the spots leads to hold the types of that part.
  have grows : ∀ before after, tree.spots = before ++ after →
      ((before.flatMap Spot.gives).foldl (FileFacts.add file none) .empty).types =
        before.filterMap (typeAt? tree file) := by
    intro before
    induction before using List.reverseRecOn with
    | nil => simp [FileFacts.empty]
    | append_singleton before p ih =>
      intro after split
      rw [List.append_assoc, List.singleton_append] at split
      have package : ((before.flatMap Spot.gives).foldl (FileFacts.add file none) .empty).package =
          tree.packageAt p := by
        rw [foldPackage, packageAtEq split, projectAlong Spot.givesPackages]
        rfl
      rw [List.flatMap_append, List.foldl_append, List.filterMap_append, ← ih _ split,
        List.flatMap_singleton]
      cases named : p.packageName? with
      | none =>
        have unnamed : p.gives.filterMap Event.package? = [] := by
          rw [Spot.givesPackages, named, Option.toList_none]
        rw [foldTypes file unnamed, Spot.givesDeclared, package]
        cases found : p.declares? <;> simp [typeAt?, found]
      | some name =>
        have none := Spot.packageApart named
        rw [foldSameTypes file (by simp [Spot.givesDeclared, none])]
        simp [typeAt?, none]
  rw [factsOfEvents, eventsBySpot]
  exact grows tree.spots [] (by simp)

theorem listedBy {α β : Type} {f : α → Option β} {r : α → β → Prop} {xs : List α}
    (each : ∀ x ∈ xs, ∀ y, f x = some y → r x y) :
    List.Forall₂ r (xs.filter fun x => (f x).isSome) (xs.filterMap f) := by
  induction xs with
  | nil => exact .nil
  | cons x xs ih =>
    have rest := ih fun y mem => each y (List.mem_cons_of_mem _ mem)
    cases found : f x with
    | none => simpa [found] using rest
    | some y => simpa [found] using ⟨each x List.mem_cons_self y found, rest⟩

theorem shownBy {α β γ : Type} {r : α → β → Prop} {f : α → Option γ} {g : β → γ} {xs : List α}
    {ys : List β} (listed : List.Forall₂ r xs ys) (each : ∀ x y, r x y → f x = some (g y)) :
    ys.map g = xs.filterMap f := by
  induction listed with
  | nil => rfl
  | cons here _ ih => rw [List.map_cons, List.filterMap_cons, each _ _ here, ih]

theorem Source.Spot.declaresReached (p : Spot) :
    p.declares?.isSome = (p.reached && p.tree.declares?.isSome) := by
  rw [declares?]
  cases p.reached <;> rfl

theorem Source.Spot.declaresTree {p : Spot} {kind : TypeKind} {name : String}
    (declares : p.declares? = some (kind, name)) : p.tree.declares? = some (kind, name) := by
  unfold declares? at declares
  split at declares
  · exact declares
  · cases declares

theorem typeAtSome (tree : Tree) (file : String) (p : Spot) :
    (p.reached && p.tree.declares?.isSome) = (typeAt? tree file p).isSome := by
  rw [← Spot.declaresReached, typeAt?, Option.isSome_map]

def typeKinds : List (Kind × TypeKind) :=
  [(.classDeclaration, .plainClass), (.interfaceDeclaration, .interface),
    (.enumDeclaration, .enumeration), (.recordDeclaration, .record),
    (.annotationTypeDeclaration, .annotationType)]

theorem Source.Tree.declaresIff {t : Tree} {kind : TypeKind} {name : String} :
    t.declares? = some (kind, name) ↔
      ∃ k, t.kind? = some k ∧ (k, kind) ∈ typeKinds ∧ (t.inRole? .name).map text = some name := by
  have listed : ∀ k, declaredKind? k = some kind ↔ (k, kind) ∈ typeKinds := by
    intro k
    cases k <;> simp [declaredKind?, typeKinds, eq_comm]
  simp only [declares?, Option.bind_eq_some_iff, Option.map_eq_some_iff, Prod.mk.injEq]
  constructor
  · intro found
    obtain ⟨kind, ⟨k, shape, known⟩, node, named, rfl, same⟩ := found
    exact ⟨k, shape, (listed k).mp known, node, named, same⟩
  · intro found
    obtain ⟨k, shape, known, node, named, same⟩ := found
    exact ⟨kind, ⟨k, shape, (listed k).mpr known⟩, node, named, rfl, same⟩

theorem typesExact (tree : Tree) (file : String) :
    List.Forall₂
      (fun (p : Spot) (t : TypeInfo) => ∃ kind name, p.tree.declares? = some (kind, name) ∧
        t.kind = kind ∧ t.simpleName = name ∧ t.package = tree.packageAt p ∧
        t.fullName = qualify (tree.packageAt p) (".".intercalate (p.enclosing ++ [name])) ∧
        (t.nested = true ↔ p.enclosing ≠ []))
      (tree.spots.filter fun p => p.reached && p.tree.declares?.isSome)
      (factsOf tree file).types ∧
    (∀ (t : Tree) kind name, t.declares? = some (kind, name) ↔
      ∃ k, t.kind? = some k ∧ (k, kind) ∈ typeKinds ∧ (t.inRole? .name).map text = some name) ∧
    (∀ p i u, .child p i u ∈ tree.spots ↔ p ∈ tree.spots ∧ p.tree.children[i]? = some u) ∧
    tree.spots.Pairwise Spot.Before := by
  refine ⟨?_, fun t kind name => declaresIff, fun p i u => memSpots, Spot.insideOrdered (.root tree)⟩
  rw [typesBySpot, List.filter_congr fun p _ => typeAtSome tree file p]
  refine listedBy fun p _ t found => ?_
  obtain ⟨⟨kind, name⟩, declares, rfl⟩ := Option.map_eq_some_iff.mp found
  refine ⟨kind, name, Spot.declaresTree declares, rfl, rfl, rfl, ?_, ?_⟩
  · rw [← pathBelowDotted]
    rfl
  · cases enclosing : p.enclosing <;>
      simp [Declared.toTypeInfo, declaredIn, declared, Spot.scope, dottedPath, enclosing]

theorem typesExactAllKinds :
    let tree := treeOfSource ("package p;class A\x7bvoid f()\x7bnew B()\x7bclass C\x7b\x7d\x7d;" ++
      "class D\x7b\x7d\x7d\x7denum E\x7bX\x7binterface F\x7b\x7d\x7d\x7d@interface N\x7b\x7drecord R()\x7b\x7d")
    (factsOf tree "A.java").types.map (fun t => (t.kind, t.fullName, t.nested)) =
      [(.plainClass, "p.A", false), (.plainClass, "p.A.C", true), (.plainClass, "p.A.D", true),
        (.enumeration, "p.E", false), (.interface, "p.E.F", true), (.annotationType, "p.N", false),
        (.record, "p.R", false)] := by
  intro tree
  rw [shownBy (typesExact tree "A.java").1 (f := fun p => p.tree.declares?.map fun d =>
    (d.1, qualify (tree.packageAt p) (".".intercalate (p.enclosing ++ [d.2])), p.enclosing != []))]
  · decide +kernel
  · intro p t shown
    obtain ⟨kind, name, declares, rfl, -, -, full, nested⟩ := shown
    rw [declares, full, Option.map_some, Bool.eq_iff_iff.mpr (nested.trans bne_iff_ne.symm)]

end JavaAudit
