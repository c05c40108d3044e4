import JavaAudit.Facts.Extract
import JavaAudit.Proofs.Source.Spots

/-! Which spots of a tree the search for events comes to, and what is around it there. The trees around
a spot decide both: the types that enclose it, and the innermost body that can hold members. -/
namespace JavaAudit
open Source Tree

namespace Source.Tree

def isMethod (t : Tree) : Bool :=
  t.isKind .methodDeclaration || t.isKind .constructorDeclaration || t.isKind .compactConstructor

def isField (t : Tree) : Bool := t.isKind .fieldDeclaration || t.isKind .constantDeclaration

def opensAnonymous (t : Tree) : Bool := t.isKind .objectCreation || t.isKind .enumConstant

def isMemberBody (t : Tree) : Bool :=
  t.isKind .classBody || t.isKind .interfaceBody || t.isKind .enumBody ||
    t.isKind .annotationTypeBody

def declaredKind? : Kind → Option TypeKind
  | .classDeclaration => some .plainClass
  | .interfaceDeclaration => some .interface
  | .enumDeclaration => some .enumeration
  | .recordDeclaration => some .record
  | .annotationTypeDeclaration => some .annotationType
  | _ => none

def declares? (t : Tree) : Option (TypeKind × String) :=
  (t.kind?.bind declaredKind?).bind fun kind => (t.inRole? .name).map fun name => (kind, name.text)

end Source.Tree

structure Scope where
  path : Option String := none
  owner : Option Owner := none
  deriving DecidableEq, Repr

namespace Scope

def anonymous (s : Scope) : Scope := { s with owner := none }

def inner (s : Scope) (kind : TypeKind) (name : String) : Scope :=
  ⟨some (pathBelow s.path name), some ⟨name, kind.isInterface⟩⟩

end Scope

def dottedPath : List String → Option String
  | [] => none
  | names => some (".".intercalate names)

theorem intercalateAppend (sep name : String) {names : List String} (some : names ≠ []) :
    sep.intercalate (names ++ [name]) = sep.intercalate names ++ sep ++ name := by
  induction names with
  | nil => exact absurd rfl some
  | cons first names ih =>
    cases names with
    | nil => simp [String.intercalate_cons_cons]
    | cons second names =>
      have rest := ih (List.cons_ne_nil _ _)
      simp only [List.cons_append] at rest ⊢
      rw [String.intercalate_cons_cons, rest, String.intercalate_cons_cons]
      simp only [String.append_assoc]

theorem pathBelowDotted (names : List String) (name : String) :
    pathBelow (dottedPath names) name = ".".intercalate (names ++ [name]) := by
  cases names with
  | nil => simp [dottedPath, pathBelow]
  | cons first names => exact (intercalateAppend "." name (List.cons_ne_nil _ _)).symm

namespace Source.Spot

def isFieldVariable : Spot → Bool
  | root _ => false
  | child p _ t => p.tree.isField && t.isKind .variableDeclarator

/-- Whether the search goes on to a tree right below a spot. Of a method it takes the body, of a field
the values, of a type the bodies; a declaration of a package or an import holds nothing for it. -/
def enters (p : Spot) (t : Tree) : Bool :=
  if p.tree.isKind .packageDeclaration || p.tree.isKind .importDeclaration then false
  else if p.tree.isMethod then t.role == some .body
  else if p.tree.isField then t.isKind .variableDeclarator
  else if p.isFieldVariable then t.role == some .value
  else if p.tree.declares?.isSome then t.isMemberBody
  else true

def reached : Spot → Bool
  | root _ => true
  | child p _ t => p.reached && p.enters t

def enclosing : Spot → List String
  | root _ => []
  | child p _ _ => p.enclosing ++ (p.tree.declares?.map Prod.snd).toList

inductive Body where
  | named (declaration : Spot)
  | anonymous

def Body.holder? : Body → Option Spot
  | named d => some d
  | anonymous => none

def ownBody? : Spot → Option Body
  | root _ => none
  | child p _ t =>
      if p.tree.declares?.isSome && t.isMemberBody then some (.named p)
      else if p.tree.opensAnonymous && t.isKind .classBody then some .anonymous
      else none

def body? : Spot → Option Body
  | root _ => none
  | child p i t => (child p i t).ownBody?.or p.body?

def holder? (p : Spot) : Option Spot := p.body?.bind Body.holder?

def owner? (p : Spot) : Option Owner :=
  p.holder?.bind fun d => d.tree.declares?.map fun (kind, name) => ⟨name, kind.isInterface⟩

def scope (p : Spot) : Scope := ⟨dottedPath p.enclosing, p.owner?⟩

end Source.Spot

theorem isKindNode {t : Tree} {k : Kind} (kind : t.isKind k = true) :
    ∃ r cs, t = .node r k cs := by
  cases t with
  | leaf r token => simp [isKind, kind?] at kind
  | node r other cs =>
    obtain rfl : other = k := by simpa [isKind, kind?] using kind
    exact ⟨r, cs, rfl⟩

theorem methodKind {r : Option Role} {k : Kind} {cs : List Tree} :
    (Source.Tree.node r k cs).isMethod = decide (treatment k = .method) := by
  cases k <;> rfl

theorem fieldKind {r : Option Role} {k : Kind} {cs : List Tree} :
    (Source.Tree.node r k cs).isField = decide (treatment k = .field) := by
  cases k <;> rfl

theorem anonymousKind {r : Option Role} {k : Kind} {cs : List Tree} :
    (Source.Tree.node r k cs).opensAnonymous =
      (decide (treatment k = .creation) || decide (treatment k = .constant)) := by
  cases k <;> rfl

theorem declaresTreated {r : Option Role} {k : Kind} {cs : List Tree} :
    (Source.Tree.node r k cs).declares? =
      match treatment k with
      | .type kind => ((Source.Tree.node r k cs).inRole? .name).map fun name => (kind, name.text)
      | _ => none := by
  cases k <;> rfl

theorem methodNode {t : Tree} (method : t.isMethod = true) :
    ∃ r k cs, t = .node r k cs ∧ treatment k = .method := by
  cases t with
  | leaf r token => cases method
  | node r k cs => exact ⟨r, k, cs, rfl, by simpa [methodKind] using method⟩

theorem fieldNode {t : Tree} (field : t.isField = true) :
    ∃ r k cs, t = .node r k cs ∧ treatment k = .field := by
  cases t with
  | leaf r token => cases field
  | node r k cs => exact ⟨r, k, cs, rfl, by simpa [fieldKind] using field⟩

theorem plainMethod {t : Tree} (method : t.isMethod = true) :
    t.declares? = none ∧ t.opensAnonymous = false := by
  obtain ⟨r, k, cs, rfl, treated⟩ := methodNode method
  cases k <;> cases treated <;> exact ⟨rfl, rfl⟩

theorem plainField {t : Tree} (field : t.isField = true) :
    t.declares? = none ∧ t.opensAnonymous = false := by
  obtain ⟨r, k, cs, rfl, treated⟩ := fieldNode field
  cases k <;> cases treated <;> exact ⟨rfl, rfl⟩

theorem fieldApart {t : Tree} (field : t.isField = true) :
    (t.isKind .packageDeclaration || t.isKind .importDeclaration) = false ∧ t.isMethod = false := by
  obtain ⟨r, k, cs, rfl, treated⟩ := fieldNode field
  cases k <;> cases treated <;> exact ⟨rfl, rfl⟩

theorem typeNode {t : Tree} {kind : TypeKind} {name : String}
    (declares : t.declares? = some (kind, name)) :
    ∃ r k cs node, t = .node r k cs ∧ treatment k = .type kind ∧ t.inRole? .name = some node ∧
      node.text = name := by
  cases t with
  | leaf r token => cases declares
  | node r k cs =>
    rw [declaresTreated] at declares
    split at declares
    · next treated =>
      obtain ⟨node, named, same⟩ := Option.map_eq_some_iff.mp declares
      cases same
      exact ⟨r, k, cs, node, rfl, treated, named, rfl⟩
    · cases declares

theorem typeApart {t : Tree} (declares : t.declares?.isSome = true) :
    (t.isKind .packageDeclaration || t.isKind .importDeclaration) = false ∧ t.isMethod = false ∧
      t.isField = false ∧ t.isKind .variableDeclarator = false := by
  obtain ⟨⟨kind, name⟩, declares⟩ := Option.isSome_iff_exists.mp declares
  obtain ⟨r, k, cs, -, rfl, treated, -⟩ := typeNode declares
  have other : ∀ {l}, treatment l ≠ .type kind → (Source.Tree.node r k cs).isKind l = false := by
    intro l different
    have apart : k ≠ l := by
      rintro rfl
      exact different treated
    simp [isKind, kind?, apart]
  refine ⟨?_, ?_, ?_, other (by simp [treatment])⟩
  · rw [other (by simp [treatment]), other (by simp [treatment])]
    rfl
  · rw [methodKind, treated]
    rfl
  · rw [fieldKind, treated]
    rfl

namespace Source.Spot

theorem childOwner {p : Spot} {i : Nat} {t : Tree} {kind : TypeKind} {name : String}
    (declares : p.tree.declares? = some (kind, name)) (body : t.isMemberBody = true) :
    (child p i t).scope = p.scope.inner kind name := by
  have path : dottedPath (p.enclosing ++ [name]) = some (pathBelow (dottedPath p.enclosing) name) := by
    rw [pathBelowDotted]
    cases p.enclosing <;> rfl
  simp [scope, Scope.inner, enclosing, owner?, holder?, body?, ownBody?, Body.holder?, declares, body,
    path]

theorem childScope {p : Spot} {i : Nat} {t : Tree} (plain : p.tree.declares? = none) :
    (child p i t).scope =
      if p.tree.opensAnonymous && t.isKind .classBody then p.scope.anonymous else p.scope := by
  cases anonymous : p.tree.opensAnonymous && t.isKind .classBody <;>
    simp [scope, enclosing, owner?, holder?, body?, ownBody?, Body.holder?, plain, anonymous,
      Scope.anonymous]

theorem holderOfChild (p : Spot) (i : Nat) (t : Tree) :
    (child p i t).holder? =
      if p.tree.declares?.isSome && t.isMemberBody then some p
      else if p.tree.opensAnonymous && t.isKind .classBody then none
      else p.holder? := by
  simp only [holder?, body?, ownBody?]
  split
  · rfl
  · split <;> rfl

theorem holderAround {p d : Spot} (held : p.holder? = some d) :
    d ∈ p.chain ∧ d.depth < p.depth ∧ d.tree.declares?.isSome = true := by
  induction p with
  | root t => cases held
  | child p i t ih =>
    rw [holderOfChild] at held
    split at held
    · next named =>
      cases held
      have present := (Bool.and_eq_true_iff.mp named).1
      exact ⟨by simp [chain], by simp, present⟩
    · split at held
      · cases held
      · obtain ⟨around, deeper, present⟩ := ih held
        exact ⟨List.mem_cons_of_mem _ around, by rw [depthChild]; omega, present⟩

theorem reachedAround {a p : Spot} (around : a ∈ p.chain) (reached : p.reached = true) :
    a.reached = true := by
  induction p with
  | root t =>
    obtain rfl := List.mem_singleton.mp around
    rfl
  | child p i t ih =>
    rcases List.mem_cons.mp around with rfl | around
    · exact reached
    · exact ih around (Bool.and_eq_true_iff.mp reached).1

theorem holderBelowBody {p q : Spot} {i : Nat} {t : Tree}
    (body : (child p i t).ownBody?.isSome = true) (around : child p i t ∈ q.chain) :
    ∀ d, q.holder? = some d → p.depth ≤ d.depth := by
  induction q with
  | root u => cases List.mem_singleton.mp around
  | child q j u ih =>
    intro d held
    rw [holderOfChild] at held
    split at held
    · cases held
      have := depthAround around
      simp at this
      omega
    · split at held
      · cases held
      · next unnamed noBody =>
        rcases List.mem_cons.mp around with same | around
        · cases same
          simp [ownBody?, unnamed, noBody] at body
        · exact ih around d held

theorem entersType {p : Spot} {t : Tree} (declares : p.tree.declares?.isSome = true) :
    p.enters t = t.isMemberBody := by
  obtain ⟨closed, noMethod, noField, noVariable⟩ := typeApart declares
  have outer : p.isFieldVariable = false := by
    cases p with
    | root u => rfl
    | child f i u => simpa [isFieldVariable] using fun _ => noVariable
  simp [enters, declares, closed, noMethod, noField, outer]

end Source.Spot

end JavaAudit
