import JavaAudit.Proofs.Facts.Scopes

/-! What a tree brings forth by itself when the search comes to it, and what can be read from that: each
kind of event comes from few kinds of trees. -/
namespace JavaAudit
open Source Tree

def declaredIn (s : Scope) (kind : TypeKind) (name : String) (t : Tree) (inner : List Event) :
    Declared :=
  { declared s.path kind name t with
    publicMethods := .ofList (inner.filterMap Event.publicMethod?)
    publicFields := .ofList (inner.filterMap Event.publicField?) }

/-- What a tree brings forth by itself, `inner` being what is found in its bodies if it is a type. -/
def visit (s : Scope) (inner : List Event) : Tree → List Event
  | .leaf _ _ => []
  | .node r k cs =>
      let t : Tree := .node r k cs
      match treatment k with
      | .package => packageEvents t
      | .imports => importEvents t
      | .method => typeUses t ++ usesOf (typeNamesOf t.parameters) ++
          ((s.owner.map fun o => memberEvents o k t).getD [])
      | .field => typeUses t ++ ((s.owner.map fun o => fieldEvents o t).getD [])
      | .localVariable | .creation => typeUses t
      | .invocation => objectUses t
      | .catching => catchEvents t
      | .type kind =>
          match t.inRole? .name with
          | some name => .declares (declaredIn s kind name.text t inner) ::
              usesOf (typeNamesOf (cs.filter isHeritage))
          | none => []
      | .constant | .other => []

namespace Event

inductive Tag where
  | package | imports | declares | method | uses | emptyCatch | publicMethod | publicField
  deriving DecidableEq

def Tag.isMember : Tag → Bool
  | publicMethod | publicField => true
  | _ => false

def tag : Event → Tag
  | package _ => .package
  | imports _ => .imports
  | declares _ => .declares
  | method _ => .method
  | uses _ => .uses
  | emptyCatch _ => .emptyCatch
  | publicMethod _ => .publicMethod
  | publicField _ => .publicField

def declared? : Event → Option Declared
  | declares d => some d
  | _ => none

def package? : Event → Option String
  | package name => some name
  | _ => none

def method? : Event → Option MethodFacts
  | method facts => some facts
  | _ => none

def imported? : Event → Option ImportRef
  | imports ref => some ref
  | _ => none

def emptyCatch? : Event → Option Nat
  | emptyCatch line => some line
  | _ => none

theorem isMemberTag (e : Event) : e.isMember = e.tag.isMember := by
  cases e <;> rfl

end Event

def Sees {β : Type} (f : Event → Option β) (g : Event.Tag) : Prop :=
  ∀ e : Event, e.tag ≠ g → f e = none

theorem seesPackage : Sees Event.package? .package := by
  intro e other
  cases e with
  | package name => exact absurd rfl other
  | _ => rfl

theorem seesDeclared : Sees Event.declared? .declares := by
  intro e other
  cases e with
  | declares d => exact absurd rfl other
  | _ => rfl

theorem seesMethod : Sees Event.method? .method := by
  intro e other
  cases e with
  | method facts => exact absurd rfl other
  | _ => rfl

theorem seesImported : Sees Event.imported? .imports := by
  intro e other
  cases e with
  | imports ref => exact absurd rfl other
  | _ => rfl

theorem seesEmptyCatch : Sees Event.emptyCatch? .emptyCatch := by
  intro e other
  cases e with
  | emptyCatch line => exact absurd rfl other
  | _ => rfl

theorem seesPublicMethod : Sees Event.publicMethod? .publicMethod := by
  intro e other
  cases e with
  | publicMethod name => exact absurd rfl other
  | _ => rfl

theorem seesPublicField : Sees Event.publicField? .publicField := by
  intro e other
  cases e with
  | publicField name => exact absurd rfl other
  | _ => rfl

def Treatment.tags : Treatment → List Event.Tag
  | .package => [.package]
  | .imports => [.imports]
  | .method => [.uses, .publicMethod, .method]
  | .field => [.uses, .publicField]
  | .localVariable | .creation | .invocation => [.uses]
  | .catching => [.emptyCatch]
  | .type _ => [.declares, .uses]
  | .constant | .other => []

theorem usesTag {names : List String} {e : Event} (mem : e ∈ usesOf names) : e.tag = .uses := by
  obtain ⟨name, -, found⟩ := List.mem_filterMap.mp mem
  split at found
  · cases found
  · cases found
    rfl

theorem memberTag {o : Owner} {k : Kind} {t : Tree} {e : Event} (mem : e ∈ memberEvents o k t) :
    e.tag = .publicMethod ∨ e.tag = .method := by
  rcases List.mem_append.mp mem with mem | mem
  · split at mem
    · exact .inl (by rw [List.mem_singleton.mp mem]; rfl)
    · cases mem
  · exact .inr (by rw [List.mem_singleton.mp mem]; rfl)

theorem fieldTag {o : Owner} {t : Tree} {e : Event} (mem : e ∈ fieldEvents o t) :
    e.tag = .publicField := by
  unfold fieldEvents at mem
  split at mem
  · obtain ⟨name, -, rfl⟩ := List.mem_map.mp mem
    rfl
  · cases mem

theorem visitTags {s : Scope} {inner : List Event} {r : Option Role} {k : Kind} {cs : List Tree}
    {e : Event} (mem : e ∈ visit s inner (.node r k cs)) : e.tag ∈ (treatment k).tags := by
  cases treated : treatment k <;> simp only [visit, treated] at mem
  case package =>
    obtain ⟨name, -, rfl⟩ := Option.map_eq_some_iff.mp (Option.mem_toList.mp mem)
    simp [Treatment.tags, Event.tag]
  case imports =>
    obtain ⟨name, -, rfl⟩ := Option.map_eq_some_iff.mp (Option.mem_toList.mp mem)
    simp [Treatment.tags, Event.tag]
  case method =>
    rcases List.mem_append.mp mem with mem | mem
    · rcases List.mem_append.mp mem with mem | mem <;> simp [Treatment.tags, usesTag mem]
    · cases owner : s.owner with
      | none => simp [owner] at mem
      | some o =>
        rw [owner] at mem
        rcases memberTag mem with tag | tag <;> simp [Treatment.tags, tag]
  case field =>
    rcases List.mem_append.mp mem with mem | mem
    · simp [Treatment.tags, usesTag mem]
    · cases owner : s.owner with
      | none => simp [owner] at mem
      | some o =>
        rw [owner] at mem
        simp [Treatment.tags, fieldTag mem]
  case localVariable | creation => simp [Treatment.tags, usesTag mem]
  case invocation =>
    unfold objectUses at mem
    split at mem
    · split at mem
      · simp [Treatment.tags, usesTag mem]
      · cases mem
    · cases mem
  case catching =>
    unfold catchEvents at mem
    split at mem
    · split at mem
      · simp [Treatment.tags, List.mem_singleton.mp mem, Event.tag]
      · cases mem
    · cases mem
  case type kind =>
    split at mem
    · rcases List.mem_cons.mp mem with rfl | mem
      · simp [Treatment.tags, Event.tag]
      · simp [Treatment.tags, usesTag mem]
    · cases mem
  case constant | other => cases mem

section Views

variable {β : Type} {f : Event → Option β} {g : Event.Tag}

theorem visitNone {s : Scope} {inner : List Event} {r : Option Role} {k : Kind} {cs : List Tree}
    (sees : Sees f g) (unlike : g ∉ (treatment k).tags) :
    (visit s inner (.node r k cs)).filterMap f = [] := by
  refine List.filterMap_eq_nil_iff.mpr fun e mem => sees e ?_
  rintro rfl
  exact unlike (visitTags mem)

theorem usesNone (sees : Sees f g) (unlike : g ≠ .uses) (names : List String) :
    (usesOf names).filterMap f = [] := by
  refine List.filterMap_eq_nil_iff.mpr fun e mem => sees e ?_
  rw [usesTag mem]
  exact unlike.symm

end Views

theorem visitDeclared (s : Scope) (inner : List Event) (t : Tree) :
    (visit s inner t).filterMap Event.declared? =
      (t.declares?.map fun (kind, name) => declaredIn s kind name t inner).toList := by
  cases t with
  | leaf r token => rfl
  | node r k cs =>
    cases treated : treatment k
    case type kind =>
      have uses := usesNone seesDeclared (by decide)
      cases named : (Source.Tree.node r k cs).inRole? .name with
      | none => simp [visit, declaresTreated, treated, named]
      | some name =>
        simp only [visit, declaresTreated, treated, named, List.filterMap_cons, uses]
        rfl
    all_goals
      rw [visitNone seesDeclared (by simp [treated, Treatment.tags])]
      simp [declaresTreated, treated]

def Source.Tree.packageName? (t : Tree) : Option String :=
  if t.isKind .packageDeclaration then (t.children.find? isName).map dotted else none

theorem packageKind {r : Option Role} {k : Kind} {cs : List Tree} :
    (Source.Tree.node r k cs).isKind .packageDeclaration = decide (treatment k = .package) := by
  cases k <;> rfl

theorem visitPackages (s : Scope) (inner : List Event) (t : Tree) :
    (visit s inner t).filterMap Event.package? = t.packageName?.toList := by
  cases t with
  | leaf r token => rfl
  | node r k cs =>
    cases treated : treatment k
    case package =>
      cases name : (Source.Tree.node r k cs).children.find? isName <;>
        simp [visit, packageEvents, packageName?, packageKind, treated, name, Event.package?]
    all_goals
      rw [visitNone seesPackage (by simp [treated, Treatment.tags])]
      simp [packageName?, packageKind, treated]

def Source.Tree.importRef? (t : Tree) : Option ImportRef :=
  if t.isKind .importDeclaration then
    (t.children.filter isName).getLast?.map fun c => {
      path := c.dotted
      isStatic := t.children.any (isLeaf "static")
      isWildcard := t.children.any (·.isKind .asterisk) }
  else none

theorem importKind {r : Option Role} {k : Kind} {cs : List Tree} :
    (Source.Tree.node r k cs).isKind .importDeclaration = decide (treatment k = .imports) := by
  cases k <;> rfl

theorem visitImports (s : Scope) (inner : List Event) (t : Tree) :
    (visit s inner t).filterMap Event.imported? = t.importRef?.toList := by
  cases t with
  | leaf r token => rfl
  | node r k cs =>
    cases treated : treatment k
    case imports =>
      cases name : ((Source.Tree.node r k cs).children.filter isName).getLast? <;>
        simp [visit, importEvents, importRef?, importKind, treated, name, Event.imported?]
    all_goals
      rw [visitNone seesImported (by simp [treated, Treatment.tags])]
      simp [importRef?, importKind, treated]

def Source.Tree.isEmptyCatch (t : Tree) : Bool :=
  t.isKind .catchClause && (t.inRole? .body).any isBare

theorem catchKind {r : Option Role} {k : Kind} {cs : List Tree} :
    (Source.Tree.node r k cs).isKind .catchClause = decide (treatment k = .catching) := by
  cases k <;> rfl

theorem visitEmptyCatches (s : Scope) (inner : List Event) (t : Tree) :
    (visit s inner t).filterMap Event.emptyCatch? =
      if t.isEmptyCatch then [t.start.line] else [] := by
  cases t with
  | leaf r token => rfl
  | node r k cs =>
    cases treated : treatment k
    case catching =>
      cases body : (Source.Tree.node r k cs).inRole? .body with
      | none => simp [visit, catchEvents, isEmptyCatch, catchKind, treated, body]
      | some b =>
        cases bare : b.isBare <;>
          simp [visit, catchEvents, isEmptyCatch, catchKind, treated, body, bare, Event.emptyCatch?]
    all_goals
      rw [visitNone seesEmptyCatch (by simp [treated, Treatment.tags])]
      simp [isEmptyCatch, catchKind, treated]

theorem visitMethods (s : Scope) (inner : List Event) (r : Option Role) (k : Kind) (cs : List Tree) :
    (visit s inner (.node r k cs)).filterMap Event.method? =
      if (Source.Tree.node r k cs).isMethod then
        (s.owner.map fun o => methodFacts o k (.node r k cs)).toList
      else [] := by
  rw [methodKind]
  cases treated : treatment k
  case method =>
    have uses := usesNone seesMethod (by decide)
    cases owner : s.owner with
    | none =>
      simp only [visit, treated, owner, typeUses, List.filterMap_append, uses]
      rfl
    | some o =>
      simp only [visit, treated, owner, typeUses, memberEvents, List.filterMap_append, uses,
        Option.map_some, Option.getD_some]
      split <;> rfl
  all_goals
    rw [visitNone seesMethod (by simp [treated, Treatment.tags])]
    rfl

def isVisible (o : Owner) (t : Tree) : Bool :=
  t.hasModifier "public" || (o.isInterface && !t.hasModifier "private")

theorem visitPublicMethods (s : Scope) (inner : List Event) (t : Tree) :
    (visit s inner t).filterMap Event.publicMethod? =
      if t.isMethod then
        ((s.owner.filter fun o => isVisible o t).map fun o =>
          ((t.inRole? .name).map text).getD o.name).toList
      else [] := by
  cases t with
  | leaf r token => rfl
  | node r k cs =>
    rw [methodKind]
    cases treated : treatment k
    case method =>
      have uses := usesNone seesPublicMethod (by decide)
      cases owner : s.owner with
      | none =>
        simp only [visit, treated, owner, typeUses, List.filterMap_append, uses]
        rfl
      | some o =>
        simp only [visit, treated, owner, typeUses, memberEvents, List.filterMap_append, uses,
          Option.map_some, Option.getD_some, Option.filter_some, isVisible]
        split <;> rfl
    all_goals
      rw [visitNone seesPublicMethod (by simp [treated, Treatment.tags])]
      rfl

theorem visitPublicFields (s : Scope) (inner : List Event) (t : Tree) :
    (visit s inner t).filterMap Event.publicField? =
      if t.isField then
        (s.owner.filter fun o => t.hasModifier "public" || o.isInterface).elim [] fun _ =>
          ((t.children.filter (·.isKind .variableDeclarator)).filterMap (inRole? .name)).map text
      else [] := by
  cases t with
  | leaf r token => rfl
  | node r k cs =>
    rw [fieldKind]
    cases treated : treatment k
    case field =>
      have uses := usesNone seesPublicField (by decide)
      cases owner : s.owner with
      | none =>
        simp only [visit, treated, owner, typeUses, List.filterMap_append, uses]
        rfl
      | some o =>
        simp only [visit, treated, owner, typeUses, fieldEvents, List.filterMap_append, uses,
          Option.map_some, Option.getD_some, Option.filter_some]
        split
        · simp [List.filterMap_map, Function.comp_def, Event.publicField?]
        · rfl
    all_goals
      rw [visitNone seesPublicField (by simp [treated, Treatment.tags])]
      rfl

theorem visitFree {s : Scope} {inner : List Event} {t : Tree} {e : Event} (free : s.owner = none)
    (mem : e ∈ visit s inner t) : e.isMember = false := by
  have noMethod : (visit s inner t).filterMap Event.publicMethod? = [] := by
    simp [visitPublicMethods, free]
  have noField : (visit s inner t).filterMap Event.publicField? = [] := by
    simp [visitPublicFields, free]
  have first := List.filterMap_eq_nil_iff.mp noMethod e mem
  have second := List.filterMap_eq_nil_iff.mp noField e mem
  cases e <;> simp_all [Event.publicMethod?, Event.publicField?, Event.isMember]

end JavaAudit
