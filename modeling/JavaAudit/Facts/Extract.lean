import JavaAudit.Facts.Event

/-! The facts of a file. A walk goes through its tree in the order of the source and keeps the trees to
come on a stack of its own, so that no tree is too deep for it. Each waits there with the number of
what is around it. -/
namespace JavaAudit
open Source Tree

structure Around where
  path : Option String := none
  /-- Which of the recorded types the innermost body belongs to. Absent at top level and in the body of
  an anonymous class or an enumeration constant. -/
  owner : Option Nat := none
  inInterface : Bool := false

namespace Around

def anonymous (a : Around) : Around := { path := a.path }

def owner? (f : FileFacts) (a : Around) : Option Owner :=
  a.owner.bind fun i => f.types[i]?.map fun t => ⟨t.simpleName, a.inInterface⟩

end Around

inductive Passage where
  | same
  | anonymous
  | inner (a : Around)

def Passage.around (a : Around) : Passage → Around
  | same => a
  | anonymous => a.anonymous
  | inner b => b

namespace FileFacts

def amend (owner : Option Nat) (change : TypeInfo → TypeInfo) (f : FileFacts) : FileFacts :=
  match owner with
  | some i => { f with types := f.types.modify i change }
  | none => f

@[simp] theorem amendNone (change : TypeInfo → TypeInfo) (f : FileFacts) :
    f.amend none change = f := rfl

/-- Takes one event into account. A type is declared in the package that was named last, a public
member is one of the owner. -/
def add (file : String) (owner : Option Nat) (f : FileFacts) : Event → FileFacts
  | .package name => { f with package := name }
  | .imports ref => { f with imports := f.imports ++ [ref] }
  | .declares d => { f with types := f.types ++ [d.toTypeInfo f.package file] }
  | .method m => { f with methods := f.methods ++ [m] }
  | .uses name => { f with usedTypes := f.usedTypes.insert name }
  | .emptyCatch line => { f with emptyCatchLines := f.emptyCatchLines ++ [line] }
  | .publicMethod name =>
      f.amend owner fun t => { t with publicMethods := t.publicMethods.insert name }
  | .publicField name => f.amend owner fun t => { t with publicFields := t.publicFields.insert name }

end FileFacts

structure Survey where
  facts : FileFacts := .empty
  arounds : Array Around := #[{}]
  -- the next tree comes first
  stack : List (Tree × Nat)

namespace Survey

def along (p : Passage) (ts : List Tree) : List (Tree × Passage) := ts.map fun t => (t, p)

def valuesOf (ts : List Tree) : List Tree :=
  (ts.filter (·.isKind .variableDeclarator)).flatMap fun v =>
    v.children.filter (·.role == some .value)

def apartBodies (ts : List Tree) : List (Tree × Passage) :=
  ts.map fun t => (t, if t.isKind .classBody then .anonymous else .same)

def visit (f : FileFacts) (a : Around) : Tree → List Event × List (Tree × Passage)
  | .leaf _ _ => ([], [])
  | .node r k cs =>
      let t : Tree := .node r k cs
      match treatment k with
      | .package => (packageEvents t, [])
      | .imports => (importEvents t, [])
      | .method =>
          (typeUses t ++ usesOf (typeNamesOf t.parameters) ++
            (((a.owner? f).map fun o => memberEvents o k t).getD []),
            along .same (cs.filter (·.role == some .body)))
      | .field =>
          (typeUses t ++ (((a.owner? f).map fun o => fieldEvents o t).getD []),
            along .same (valuesOf cs))
      | .localVariable => (typeUses t, along .same cs)
      | .creation => (typeUses t, apartBodies cs)
      | .constant => ([], apartBodies cs)
      | .invocation => (objectUses t, along .same cs)
      | .catching => (catchEvents t, along .same cs)
      | .type kind =>
          match t.inRole? .name with
          | some name =>
              let below : Around :=
                { path := pathBelow a.path name.text
                  owner := f.types.length
                  inInterface := kind.isInterface }
              (.declares (declared a.path kind name.text t) ::
                usesOf (typeNamesOf (cs.filter isHeritage)),
                along (.inner below) (cs.filter isTypeBody))
          | none => ([], along .same cs)
      | .other => ([], along .same cs)

def enter (here : Nat) (s : Survey) : Tree × Passage → Survey
  | (t, .same) => { s with stack := (t, here) :: s.stack }
  | (t, p) =>
      { s with
        arounds := s.arounds.push (p.around (s.arounds[here]?.getD {}))
        stack := (t, s.arounds.size) :: s.stack }

/-- Visits a tree and puts those below it on the stack, the first of them on top. -/
def turn (file : String) (s : Survey) (t : Tree) (here : Nat) : Survey :=
  let a := s.arounds[here]?.getD {}
  let (found, next) := visit s.facts a t
  next.foldr (fun c s => s.enter here c)
    { s with facts := found.foldl (FileFacts.add file a.owner) s.facts }

def waiting (s : Survey) : List Tree := s.stack.map Prod.fst

theorem enterWaiting (here : Nat) (s : Survey) (c : Tree × Passage) :
    (s.enter here c).waiting = c.1 :: s.waiting := by
  obtain ⟨t, p⟩ := c
  cases p <;> rfl

theorem enterAllWaiting (here : Nat) (s : Survey) (next : List (Tree × Passage)) :
    (next.foldr (fun c s => s.enter here c) s).waiting = next.map Prod.fst ++ s.waiting := by
  induction next with
  | nil => rfl
  | cons c next ih => rw [List.foldr_cons, enterWaiting, ih, List.map_cons, List.cons_append]

theorem alongTrees (p : Passage) (ts : List Tree) : (along p ts).map Prod.fst = ts := by
  simp [along, Function.comp_def]

theorem apartTrees (ts : List Tree) : (apartBodies ts).map Prod.fst = ts := by
  simp [apartBodies, Function.comp_def]

theorem filterLighter (p : Tree → Bool) (ts : List Tree) :
    (preorderOf (ts.filter p)).length ≤ (preorderOf ts).length := by
  induction ts with
  | nil => exact Nat.le_refl _
  | cons t ts ih =>
    rw [List.filter_cons, preorderOf, List.length_append]
    split
    · rw [preorderOf, List.length_append]
      omega
    · omega

theorem valuesLighter (ts : List Tree) :
    (preorderOf (valuesOf ts)).length ≤ (preorderOf ts).length := by
  refine Nat.le_trans ?_ (filterLighter (·.isKind .variableDeclarator) ts)
  rw [valuesOf]
  induction ts.filter (·.isKind .variableDeclarator) with
  | nil => simp
  | cons v vs ih =>
    have inner := filterLighter (·.role == some .value) v.children
    rw [List.flatMap_cons, preorderOfEq, List.flatMap_append, ← preorderOfEq, ← preorderOfEq,
      preorderOf, preorderEq, List.length_append, List.length_append, List.length_cons]
    omega

theorem visitLighter (f : FileFacts) (a : Around) (t : Tree) :
    (preorderOf ((visit f a t).2.map Prod.fst)).length < t.preorder.length := by
  rw [preorderEq, List.length_cons, Nat.lt_succ_iff]
  cases t with
  | leaf r token => exact Nat.zero_le _
  | node r k cs =>
    rw [Tree.children]
    cases treated : treatment k <;> simp only [visit, treated, alongTrees, apartTrees]
    case package | imports => exact Nat.zero_le _
    case method => exact filterLighter _ cs
    case field => exact valuesLighter cs
    case type kind =>
      split
      · rw [alongTrees]
        exact filterLighter _ cs
      · exact Nat.le_of_eq (by rw [alongTrees])
    all_goals exact Nat.le_refl _

theorem turnLighter {s : Survey} {t : Tree} {here : Nat} {rest : List (Tree × Nat)}
    (file : String) (filled : s.stack = (t, here) :: rest) :
    (preorderOf (turn file { s with stack := rest } t here).waiting).length <
      (preorderOf s.waiting).length := by
  have lighter := visitLighter s.facts (s.arounds[here]?.getD {}) t
  rw [turn, enterAllWaiting, waiting, waiting, filled, List.map_cons, preorderOf, preorderOfEq,
    List.flatMap_append, ← preorderOfEq, ← preorderOfEq, List.length_append, List.length_append]
  exact Nat.add_lt_add_right lighter _

def run (file : String) (s : Survey) : FileFacts :=
  match _filled : s.stack with
  | [] => s.facts
  | (t, here) :: rest => (turn file { s with stack := rest } t here).run file
termination_by (preorderOf s.waiting).length
decreasing_by exact turnLighter file _filled

end Survey

def factsOf (tree : Tree) (file : String) : FileFacts :=
  Survey.run file { stack := [(tree, 0)] }

end JavaAudit
