import JavaAudit.Proofs.Facts.Search
import JavaAudit.Proofs.Names
import JavaAudit.Proofs.Source.Shapes

/-! Which names a file records as used types: those in the type expressions at the reached spots of its
tree, and the plain names that methods are called on. Of a qualified type only the last segment is
recorded, so the arguments of the types that qualify it are passed over; nothing else is. -/
namespace JavaAudit
open Source Tree

namespace Source.Tree

def ownTypeName? (t : Tree) : Option String :=
  if t.isKind .typeIdentifier then some t.text
  else if t.isKind .scopedTypeIdentifier then some t.lastSegment
  else none

/-- Whether all that is below a part of a type expression is passed over. -/
def closesNames (t : Tree) : Bool :=
  t.kind?.any fun k => k.isWord || k == .scopedTypeIdentifier

theorem typeNamesOfEq (ts : List Tree) : typeNamesOf ts = ts.flatMap typeNames := by
  induction ts with
  | nil => rfl
  | cons t ts ih => rw [typeNamesOf, ih, List.flatMap_cons]

theorem typeNamesEq (t : Tree) :
    t.typeNames = if t.closesNames then t.ownTypeName?.toList else t.children.flatMap typeNames := by
  cases t with
  | leaf r token => rfl
  | node r k cs =>
    cases k
    case typeIdentifier | scopedTypeIdentifier | voidType | booleanType | integralType |
        floatingType => rfl
    all_goals exact typeNamesOfEq cs

theorem ownNameCloses {t : Tree} (passed : t.closesNames = false) : t.ownTypeName? = none := by
  cases t with
  | leaf r token => rfl
  | node r k cs =>
    have noName : k ≠ .typeIdentifier := by
      rintro rfl
      cases passed
    have unqualified : k ≠ .scopedTypeIdentifier := by
      rintro rfl
      cases passed
    simp [ownTypeName?, isKind, kind?, noName, unqualified]

/-- The type expressions that are read at a tree: the type and the parameters of a method, the type of
a variable or of a created object, and what a named type is built upon, its components included. -/
def typeExpressions (t : Tree) : List Tree :=
  if t.isMethod then (t.inRole? .type).toList ++ t.parameters
  else if t.isField || t.isKind .localVariable || t.isKind .objectCreation then
    (t.inRole? .type).toList
  else if t.declares?.isSome then t.children.filter isHeritage
  else []

def calledOn? (t : Tree) : Option String :=
  if t.isKind .methodInvocation then ((t.inRole? .object).filter (·.isKind .identifier)).map text
  else none

end Source.Tree

namespace Source.Spot

def inSight : Spot → Bool
  | root _ => true
  | child p _ _ => p.inSight && !p.tree.closesNames

theorem sightAround {a p : Spot} (around : a ∈ p.chain) (sight : p.inSight = true) :
    a.inSight = true := by
  induction p with
  | root t =>
    obtain rfl := List.mem_singleton.mp around
    rfl
  | child p i t ih =>
    rcases List.mem_cons.mp around with rfl | around
    · exact sight
    · exact ih around (Bool.and_eq_true_iff.mp sight).1

theorem memTypeNames {p : Spot} (sight : p.inSight = true) {name : String} :
    name ∈ p.tree.typeNames ↔
      ∃ q ∈ p.inside, q.inSight = true ∧ q.tree.ownTypeName? = some name := by
  induction p using induct with
  | step p ih =>
    have below : ∀ c ∈ p.children, c.inSight = !p.tree.closesNames := by
      intro c mem
      obtain ⟨i, t, -, rfl⟩ := memChildren.mp mem
      simp [inSight, sight]
    rw [typeNamesEq]
    cases closes : p.tree.closesNames with
    | true =>
      constructor
      · intro own
        exact ⟨p, selfInside p, sight, Option.mem_toList.mp own⟩
      · rintro ⟨q, mem, seen, own⟩
        rcases memInside.mp mem with rfl | ⟨c, child, mem⟩
        · exact Option.mem_toList.mpr own
        · have hidden := below c child
          rw [sightAround (insideChain mem) seen, closes] at hidden
          cases hidden
    | false =>
      rw [if_neg (by simp), ← childrenTrees, List.flatMap_map, List.mem_flatMap]
      constructor
      · rintro ⟨c, child, named⟩
        obtain ⟨q, mem, found⟩ := (ih c child (by simp [below c child, closes])).mp named
        exact ⟨q, memInside.mpr (.inr ⟨c, child, mem⟩), found⟩
      · rintro ⟨q, mem, seen, own⟩
        rcases memInside.mp mem with rfl | ⟨c, child, mem⟩
        · rw [ownNameCloses closes] at own
          cases own
        · exact ⟨c, child, (ih c child (by simp [below c child, closes])).mpr ⟨q, mem, seen, own⟩⟩

def inQualified : Spot → Bool
  | root _ => false
  | child p _ _ => p.inQualified || p.tree.isKind .scopedTypeIdentifier

theorem sightOfShape {e : Tree} (shapes : e.Each TypeShape) {q : Spot} (within : q ∈ e.spots)
    (isNode : q.tree.isNode = true) : q.inSight = !q.inQualified := by
  induction q with
  | root t => rfl
  | child p i t ih =>
    obtain ⟨above, found⟩ := Tree.memSpots.mp within
    have mem := List.mem_of_getElem? found
    have shape := shapes.spot above
    cases here : p.tree with
    | leaf r token => simp [here, Tree.children] at mem
    | node r k cs =>
      rw [here] at mem shape
      have noWord : k.isWord = false := by
        refine Bool.eq_false_iff.mpr fun word => ?_
        obtain ⟨token, rfl⟩ := shape.here.1 word
        rw [List.mem_singleton.mp mem] at isNode
        cases isNode
      simp [inSight, inQualified, ih above (by rw [here]; rfl), here, closesNames, kind?, isKind,
        noWord]

end Source.Spot

def recordedNames (names : List String) : List String :=
  (names.map Text.trim).filter fun name => ¬ (name = "" ∨ name = "var")

theorem memRecorded {x : String} {names : List String} :
    x ∈ recordedNames names ↔ x ≠ "" ∧ x ≠ "var" ∧ ∃ name ∈ names, Text.trim name = x := by
  rw [recordedNames, List.mem_filter, List.mem_map, decide_eq_true_eq, not_or, and_comm, and_assoc]

@[simp] theorem recordedNil : recordedNames [] = [] := rfl

theorem recordedAppend (names others : List String) :
    recordedNames (names ++ others) = recordedNames names ++ recordedNames others := by
  simp [recordedNames]

def Event.used? : Event → Option String
  | uses name => some name
  | _ => none

theorem seesUsed : Sees Event.used? .uses := by
  intro e other
  cases e with
  | uses name => exact absurd rfl other
  | _ => rfl

theorem usesOfUsed (names : List String) :
    (usesOf names).filterMap Event.used? = recordedNames names := by
  rw [usesOf, recordedNames, List.filterMap_filterMap, ← List.filterMap_eq_filter]
  congr 1
  funext name
  by_cases none : name = "" ∨ name = "var" <;> simp [none, Option.guard, Event.used?]

theorem typeUsesUsed (t : Tree) :
    (typeUses t).filterMap Event.used? =
      recordedNames ((t.inRole? .type).toList.flatMap typeNames) := by
  rw [typeUses, usesOfUsed]
  cases t.inRole? .type <;> simp

theorem memberUsed (o : Owner) (k : Kind) (t : Tree) :
    (memberEvents o k t).filterMap Event.used? = [] := by
  refine List.filterMap_eq_nil_iff.mpr fun e mem => seesUsed e ?_
  rcases memberTag mem with tag | tag <;> rw [tag] <;> decide

theorem fieldUsed (o : Owner) (t : Tree) : (fieldEvents o t).filterMap Event.used? = [] := by
  refine List.filterMap_eq_nil_iff.mpr fun e mem => seesUsed e ?_
  rw [fieldTag mem]
  decide

theorem variableKinds {r : Option Role} {k : Kind} {cs : List Tree} :
    ((Source.Tree.node r k cs).isKind .localVariable ||
      (Source.Tree.node r k cs).isKind .objectCreation) =
      decide (treatment k = .localVariable ∨ treatment k = .creation) := by
  cases k <;> rfl

theorem invocationKind {r : Option Role} {k : Kind} {cs : List Tree} :
    (Source.Tree.node r k cs).isKind .methodInvocation = decide (treatment k = .invocation) := by
  cases k <;> rfl

theorem visitUsed (s : Scope) (inner : List Event) (t : Tree) :
    (visit s inner t).filterMap Event.used? =
      recordedNames (t.typeExpressions.flatMap typeNames ++ t.calledOn?.toList) := by
  cases t with
  | leaf r token => rfl
  | node r k cs =>
    rw [typeExpressions, calledOn?, methodKind, Bool.or_assoc, fieldKind, variableKinds,
      invocationKind]
    cases treated : treatment k
    case method =>
      cases owner : s.owner <;>
        simp [visit, treated, owner, typeUsesUsed, usesOfUsed, typeNamesOfEq, memberUsed,
          recordedAppend]
    case field =>
      cases owner : s.owner <;>
        simp [visit, treated, owner, typeUsesUsed, fieldUsed]
    case localVariable | creation => simp [visit, treated, typeUsesUsed]
    case invocation =>
      cases object : (Source.Tree.node r k cs).inRole? .object with
      | none => simp [visit, objectUses, treated, object, declaresTreated]
      | some o =>
        cases plain : o.isKind .identifier <;>
          simp [visit, objectUses, treated, object, plain, declaresTreated, usesOfUsed,
            Option.filter_some]
    case type kind =>
      cases named : (Source.Tree.node r k cs).inRole? .name with
      | none => simp [visit, treated, named, declaresTreated]
      | some name =>
        simp [visit, treated, named, declaresTreated, usesOfUsed, typeNamesOfEq,
          List.filterMap_cons, Event.used?, Tree.children]
    all_goals
      rw [visitNone seesUsed (by simp [treated, Treatment.tags])]
      simp [declaresTreated, treated]

theorem addUsed (file : String) (f : FileFacts) (e : Event) {x : String} :
    x ∈ (f.add file none e).usedTypes ↔ x ∈ f.usedTypes ∨ e.used? = some x := by
  cases e <;> simp [FileFacts.add, Event.used?, NameSet.memInsert, eq_comm, or_comm]

theorem foldUsed (file : String) (f : FileFacts) (es : List Event) {x : String} :
    x ∈ (es.foldl (FileFacts.add file none) f).usedTypes ↔
      x ∈ f.usedTypes ∨ x ∈ es.filterMap Event.used? := by
  induction es generalizing f with
  | nil => simp
  | cons e es ih =>
    rw [List.foldl_cons, ih, addUsed, or_assoc]
    cases used : e.used? <;> simp [used, eq_comm]

theorem usedBySpot (tree : Tree) (file : String) {x : String} :
    x ∈ (factsOf tree file).usedTypes ↔ ∃ p ∈ tree.spots, p.reached = true ∧
      x ∈ recordedNames (p.tree.typeExpressions.flatMap typeNames ++ p.tree.calledOn?.toList) := by
  rw [factsOfEvents, foldUsed, eventsBySpot, List.filterMap_flatMap, List.mem_flatMap]
  simp only [givesProject seesUsed rfl, Spot.own, visitUsed, FileFacts.empty, NameSet.memEmpty,
    false_or]
  refine exists_congr fun p => and_congr_right fun _ => ?_
  cases p.reached <;> simp

section Expressions

variable {t e : Tree}

theorem memInRole {role : Role} (found : t.inRole? role = some e) : e ∈ t.children :=
  List.mem_of_find?_eq_some found

theorem expressionEach {P : Kind → List Tree → Prop} (each : t.Each P)
    (mem : e ∈ t.typeExpressions) : e.Each P := by
  have ofType : e ∈ (t.inRole? .type).toList → e.Each P :=
    fun mem => each.down (memInRole (Option.mem_toList.mp mem))
  unfold typeExpressions at mem
  split at mem
  · rcases List.mem_append.mp mem with mem | mem
    · exact ofType mem
    · cases found : t.inRole? .parameters with
      | none => simp [Tree.parameters, found] at mem
      | some row =>
        rw [Tree.parameters, found] at mem
        exact (each.down (memInRole found)).down (List.mem_of_mem_filter mem)
  · split at mem
    · exact ofType mem
    · split at mem
      · exact each.down (List.mem_of_mem_filter mem)
      · cases mem

theorem lastSegmentOfShape {r : Option Role} {cs : List Tree}
    (shape : TypeShape .scopedTypeIdentifier cs) :
    ∃ segment, cs.getLast? = some segment ∧ segment.isKind .typeIdentifier = true ∧
      (Source.Tree.node r .scopedTypeIdentifier cs).lastSegment = segment.text := by
  obtain ⟨front, role, below, rfl⟩ := shape.2 rfl
  refine ⟨_, List.getLast?_concat, rfl, ?_⟩
  have last : isKind (.node role .typeIdentifier below) .typeIdentifier = true := rfl
  simp [lastSegment, Tree.children, List.filter_append, last]

end Expressions

theorem memNamesRead {t : Tree} {name : String} :
    name ∈ t.typeExpressions.flatMap typeNames ++ t.calledOn?.toList ↔
      (∃ e ∈ t.typeExpressions, ∃ q ∈ e.spots, q.inSight = true ∧
        q.tree.ownTypeName? = some name) ∨ t.calledOn? = some name := by
  rw [List.mem_append, List.mem_flatMap, Option.mem_toList]
  refine or_congr_left (exists_congr fun e => and_congr_right fun _ => ?_)
  exact @Spot.memTypeNames (.root e) rfl name

theorem usedExactly (tree : Tree) (file : String) (x : String) :
    x ∈ (factsOf tree file).usedTypes ↔ x ≠ "" ∧ x ≠ "var" ∧
      ∃ p ∈ tree.spots, p.reached = true ∧
        ((∃ e ∈ p.tree.typeExpressions, ∃ q ∈ e.spots, q.inSight = true ∧
          ∃ name, q.tree.ownTypeName? = some name ∧ Text.trim name = x) ∨
        ∃ name, p.tree.calledOn? = some name ∧ Text.trim name = x) := by
  rw [usedBySpot]
  constructor
  · rintro ⟨p, within, reached, recorded⟩
    obtain ⟨filled, noVar, name, read, same⟩ := memRecorded.mp recorded
    refine ⟨filled, noVar, p, within, reached, ?_⟩
    rcases memNamesRead.mp read with ⟨e, expression, q, inside, seen, own⟩ | called
    · exact .inl ⟨e, expression, q, inside, seen, name, own, same⟩
    · exact .inr ⟨name, called, same⟩
  · rintro ⟨filled, noVar, p, within, reached, read⟩
    refine ⟨p, within, reached, memRecorded.mpr ⟨filled, noVar, ?_⟩⟩
    rcases read with ⟨e, expression, q, inside, seen, name, own, same⟩ | ⟨name, called, same⟩
    · exact ⟨name, memNamesRead.mpr (.inl ⟨e, expression, q, inside, seen, own⟩), same⟩
    · exact ⟨name, memNamesRead.mpr (.inr called), same⟩

theorem typeNamesRecorded (tree : Tree) (file : String) :
    (∀ x, x ∈ (factsOf tree file).usedTypes ↔ x ≠ "" ∧ x ≠ "var" ∧
      ∃ p ∈ tree.spots, p.reached = true ∧
        ((∃ e ∈ p.tree.typeExpressions, ∃ q ∈ e.spots, q.inSight = true ∧
          ∃ name, q.tree.ownTypeName? = some name ∧ Text.trim name = x) ∨
        ∃ name, p.tree.calledOn? = some name ∧ Text.trim name = x)) ∧
    ∀ source, parse source = .parsed tree → ∀ p ∈ tree.spots, p.reached = true →
      ∀ e ∈ p.tree.typeExpressions, ∀ q ∈ e.spots,
        (q.tree.isNode = true → q.inSight = !q.inQualified) ∧
        (q.inQualified = false →
          let Recorded (name : String) : Prop := Text.trim name ≠ "" → Text.trim name ≠ "var" →
            Text.trim name ∈ (factsOf tree file).usedTypes
          (q.tree.isKind .typeIdentifier = true → Recorded q.tree.text) ∧
          (q.tree.isKind .scopedTypeIdentifier = true →
            ∃ segment, q.tree.children.getLast? = some segment ∧
              segment.isKind .typeIdentifier = true ∧ Recorded segment.text)) := by
  refine ⟨usedExactly tree file, fun source parsed p within reached e expression q inside => ?_⟩
  have shapes := expressionEach ((parsedTypeShape parsed).spot within) expression
  have sight := fun isNode => Spot.sightOfShape shapes inside isNode
  refine ⟨sight, fun free => ?_⟩
  intro Recorded
  have recorded : ∀ {name}, q.tree.isNode = true → q.tree.ownTypeName? = some name →
      Recorded name := by
    intro name isNode own filled noVar
    have seen : q.inSight = true := by rw [sight isNode, free]; rfl
    exact (usedExactly tree file _).mpr ⟨filled, noVar, p, within, reached,
      .inl ⟨e, expression, q, inside, seen, name, own, rfl⟩⟩
  constructor
  · intro kind
    obtain ⟨r, cs, shape⟩ := isKindNode kind
    exact recorded (by rw [shape]; rfl) (by rw [ownTypeName?, if_pos kind])
  · intro kind
    obtain ⟨r, cs, shape⟩ := isKindNode kind
    have here := shapes.spot inside
    rw [shape] at here
    obtain ⟨segment, last, named, same⟩ := @lastSegmentOfShape r cs here.here
    rw [shape]
    refine ⟨segment, last, named, recorded (by rw [shape]; rfl) ?_⟩
    rw [shape, ← same]
    rfl

theorem typeNamesRecordedNested :
    let source := "class A\x7bMap<K,List<a.B<Arg>>> f;\x7d"
    let tree := treeOfSource source
    parse source = .parsed tree ∧ "Arg" ∈ (factsOf tree "A.java").usedTypes ∧
      "B" ∈ (factsOf tree "A.java").usedTypes ∧ "a" ∉ (factsOf tree "A.java").usedTypes := by
  intro source tree
  have parsed : parse source = .parsed tree := parsedOfWhole (by decide +kernel)
  obtain ⟨p, within, reached, e, expression, q, inside, free, kind, spelt⟩ :
      ∃ p ∈ tree.spots, p.reached = true ∧ ∃ e ∈ p.tree.typeExpressions, ∃ q ∈ e.spots,
        q.inQualified = false ∧ q.tree.isKind .typeIdentifier = true ∧ q.tree.text = "Arg" := by
    decide +kernel
  have first := (((typeNamesRecorded tree "A.java").2 source parsed p within reached e expression q
    inside).2 free).1 kind
  rw [spelt] at first
  obtain ⟨p, within, reached, e, expression, q, inside, free, kind, spelt⟩ :
      ∃ p ∈ tree.spots, p.reached = true ∧ ∃ e ∈ p.tree.typeExpressions, ∃ q ∈ e.spots,
        q.inQualified = false ∧ q.tree.isKind .scopedTypeIdentifier = true ∧
          q.tree.children.getLast?.map text = some "B" := by
    decide +kernel
  obtain ⟨segment, last, -, second⟩ := (((typeNamesRecorded tree "A.java").2 source parsed p within
    reached e expression q inside).2 free).2 kind
  have same : segment.text = "B" := by simpa [last] using spelt
  rw [same] at second
  refine ⟨parsed, first (by decide) (by decide), second (by decide) (by decide), ?_⟩
  rw [factsOfEvents]
  decide +kernel

/-- The arguments of a type that qualifies another one are not recorded. -/
theorem qualifierArgumentsLost :
    let source := "class A \x7b Outer<Arg>.Inner f; \x7d"
    let tree := treeOfSource source
    parse source = .parsed tree ∧
    (∃ p ∈ tree.spots, p.reached = true ∧ ∃ e ∈ p.tree.typeExpressions, ∃ q ∈ e.spots,
      (q.chain.any fun a => a.tree.isKind .typeArguments) = true ∧
        q.tree.isKind .typeIdentifier = true ∧ q.tree.text = "Arg") ∧
    (factsOf tree "A.java").usedTypes.toList = ["Inner"] := by
  intro source tree
  have parsed : parse source = .parsed tree := parsedOfWhole (by decide +kernel)
  refine ⟨parsed, by decide +kernel, ?_⟩
  rw [factsOfEvents]
  decide +kernel

end JavaAudit
