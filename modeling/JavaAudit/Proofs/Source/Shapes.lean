import JavaAudit.Proofs.Source.Derivation
import JavaAudit.Proofs.Source.Spots

/-! What the nodes of a parsed tree hold, told by their kind. The children of a node are derived from a
rule that the grammar lists for its kind, so a test that these rules pass, one by one, says what the
children of every such node are. -/
namespace JavaAudit.Source

inductive Tree.Each (P : Kind → List Tree → Prop) : Tree → Prop
  | leaf (r : Option Role) (token : Token) : Each P (.leaf r token)
  | node (r : Option Role) (k : Kind) (cs : List Tree) (below : ∀ c ∈ cs, Each P c)
      (here : P k cs) : Each P (.node r k cs)

namespace Tree.Each

variable {P : Kind → List Tree → Prop} {t : Tree}

theorem withRole (each : t.Each P) (role : Role) : (t.withRole role).Each P := by
  cases each with
  | leaf r token => exact .leaf _ token
  | node r k cs below here => exact .node _ k cs below here

theorem down (each : t.Each P) {c : Tree} (mem : c ∈ t.children) : c.Each P := by
  cases each with
  | leaf r token => cases mem
  | node r k cs below here => exact below c mem

theorem spot (each : t.Each P) {p : Spot} (within : p ∈ t.spots) : p.tree.Each P :=
  Spot.inherits (fun above mem => above.down mem) each within

theorem imp {Q : Kind → List Tree → Prop} (each : t.Each P) (implies : ∀ k cs, P k cs → Q k cs) :
    t.Each Q := by
  induction each with
  | leaf r token => exact .leaf r token
  | node r k cs below here ih => exact .node r k cs ih (implies k cs here)

theorem here {r : Option Role} {k : Kind} {cs : List Tree} (each : (Tree.node r k cs).Each P) :
    P k cs := by
  cases each with
  | node _ _ _ _ here => exact here

end Tree.Each

variable {N : Type}

namespace Rule

def linked (role : Option Role) (before parts : Rule N) : Rule N :=
  match role with
  | none => .both before parts
  | some role => .both (.playing role before) parts

mutual

def nodes : Rule N → List (Kind × Rule N)
  | .nothing | .terminal _ | .named _ => []
  | .both first next => first.nodes ++ next.nodes
  | .either first other => first.nodes ++ other.nodes
  | .many item | .playing _ item | .given _ item | .only _ item => item.nodes
  | .node kind parts => (kind, parts) :: parts.nodes
  | .choose _ cases other => nodesOfCases cases ++ other.nodes
  | .chain item links => item.nodes ++ nodesOfLinks (.chain item links) links

def nodesOfCases : List (String × Rule N) → List (Kind × Rule N)
  | [] => []
  | (_, rule) :: rest => rule.nodes ++ nodesOfCases rest

def nodesOfLinks (before : Rule N) :
    List (List Kind × Option Role × Kind × Rule N) → List (Kind × Rule N)
  | [] => []
  | (_, role, kind, parts) :: rest =>
      (kind, linked role before parts) :: (parts.nodes ++ nodesOfLinks before rest)

end

theorem caseNodes {cases : List (String × Rule N)} {word : String} {rule : Rule N}
    (listed : (word, rule) ∈ cases) : rule.nodes ⊆ nodesOfCases cases := by
  induction cases with
  | nil => cases listed
  | cons first rest ih =>
    rw [nodesOfCases]
    rcases List.mem_cons.mp listed with rfl | listed
    · exact List.subset_append_left _ _
    · exact List.subset_append_of_subset_right _ (ih listed)

theorem linkNodes {before : Rule N} {links : List (List Kind × Option Role × Kind × Rule N)}
    {kinds : List Kind} {role : Option Role} {kind : Kind} {parts : Rule N}
    (listed : (kinds, role, kind, parts) ∈ links) :
    (kind, linked role before parts) :: parts.nodes ⊆ nodesOfLinks before links := by
  induction links with
  | nil => cases listed
  | cons first rest ih =>
    rw [nodesOfLinks]
    rcases List.mem_cons.mp listed with rfl | listed
    · exact List.cons_subset_cons _ (List.subset_append_left _ _)
    · exact List.subset_cons_of_subset _ (List.subset_append_of_subset_right _ (ih listed))

theorem derivesLinked {rules : N → Rule N} {before parts : Rule N} {ts us : List Tree}
    (role : Option Role) (front : Derives rules before ts) (back : Derives rules parts us) :
    Derives rules (linked role before parts) (linkTo role ts ++ us) := by
  cases role with
  | none => exact .both front back
  | some role => exact .both (.playing front) back

end Rule

def Built (rules : N → Rule N) (k : Kind) (cs : List Tree) : Prop :=
  ∃ n parts, (k, parts) ∈ (rules n).nodes ∧ Derives rules parts cs

theorem eachLink {P : Kind → List Tree → Prop} {ts : List Tree} (role : Option Role)
    (each : ∀ t ∈ ts, t.Each P) : ∀ t ∈ linkTo role ts, t.Each P := by
  cases role with
  | none => exact each
  | some r =>
    intro t mem
    obtain ⟨u, within, rfl⟩ := List.mem_map.mp mem
    exact (each u within).withRole r

theorem derivesBuilt {rules : N → Rule N} {rule : Rule N} {ts : List Tree}
    (derives : Derives rules rule ts) (known : ∀ entry ∈ rule.nodes, ∃ n, entry ∈ (rules n).nodes) :
    ∀ t ∈ ts, t.Each (Built rules) := by
  induction derives with
  | nothing | none => simp
  | terminal accepted =>
    intro t mem
    obtain rfl := List.mem_singleton.mp mem
    exact .leaf _ _
  | both left right first next =>
    obtain ⟨here, there⟩ := List.forall_mem_append.mp known
    exact List.forall_mem_append.mpr ⟨first here, next there⟩
  | first taken ih => exact ih (List.forall_mem_append.mp known).1
  | second taken ih => exact ih (List.forall_mem_append.mp known).2
  | more one rest first next => exact List.forall_mem_append.mpr ⟨first known, next known⟩
  | node below ih =>
    obtain ⟨⟨n, listed⟩, within⟩ := List.forall_mem_cons.mp known
    intro t mem
    obtain rfl := List.mem_singleton.mp mem
    exact .node _ _ _ (ih within) ⟨n, _, listed, below⟩
  | playing same ih =>
    intro t mem
    obtain ⟨u, within, rfl⟩ := List.mem_map.mp mem
    exact (ih known u within).withRole _
  | given same ih => exact ih known
  | chosen listed same ih =>
    have others := (List.forall_mem_append.mp known).1
    exact ih fun entry mem => others entry (Rule.caseNodes listed mem)
  | otherwise same ih => exact ih (List.forall_mem_append.mp known).2
  | item same ih => exact ih (List.forall_mem_append.mp known).1
  | link listed before fitting below ih down =>
    have others := (List.forall_mem_append.mp known).2
    obtain ⟨⟨n, entry⟩, within⟩ := List.forall_mem_cons.mp fun entry mem =>
      others entry (Rule.linkNodes listed mem)
    intro t mem
    obtain rfl := List.mem_singleton.mp mem
    exact .node _ _ _ (List.forall_mem_append.mpr ⟨eachLink _ (ih known), down within⟩)
      ⟨n, _, entry, Rule.derivesLinked _ before below⟩
  | only same fitting ih => exact ih known
  | named same ih => exact ih fun entry mem => ⟨_, mem⟩

theorem parsedBuilt {source : String} {tree : Tree} (parsed : parse source = .parsed tree) :
    tree.Each (Built grammar) :=
  derivesBuilt (parsedDerives parsed) (by simp [Rule.nodes]) tree List.mem_cons_self

/-- A test that all listed rules pass says what it grants of the children of every node. -/
theorem parsedEach {source : String} {tree : Tree} (parsed : parse source = .parsed tree)
    {test : Kind × Rule Symbol → Bool} {P : Kind → List Tree → Prop}
    (passed : ∀ n, (grammar n).nodes.all test = true)
    (grants : ∀ k parts cs, test (k, parts) = true → Derives grammar parts cs → P k cs) :
    tree.Each P := by
  refine (parsedBuilt parsed).imp ?_
  rintro k cs ⟨n, parts, listed, derives⟩
  exact grants k parts cs (List.all_eq_true.mp (passed n) _ listed) derives

def Kind.isWord : Kind → Bool
  | .typeIdentifier | .voidType | .booleanType | .integralType | .floatingType => true
  | _ => false

namespace Rule

def isTerminal : Rule N → Bool
  | .terminal _ => true
  | _ => false

def lastKind? : Rule N → Option Kind
  | .node kind _ => some kind
  | .both _ next => next.lastKind?
  | _ => none

theorem derivesLast {rules : N → Rule N} {rule : Rule N} {ts : List Tree} {k : Kind}
    (derives : Derives rules rule ts) (last : rule.lastKind? = some k) :
    ∃ front r cs, ts = front ++ [.node r k cs] := by
  induction derives with
  | @both _ _ ts us left right _ next =>
    obtain ⟨front, r, cs, rfl⟩ := next last
    exact ⟨ts ++ front, r, cs, by rw [List.append_assoc]⟩
  | node below _ =>
    cases last
    exact ⟨[], none, _, rfl⟩
  | _ => cases last

def buildsType (parts : Rule N) (kind : Kind) : Bool :=
  match kind with
  | .scopedTypeIdentifier => parts.lastKind? == some .typeIdentifier
  | _ => !kind.isWord || parts.isTerminal

end Rule

/-- A type that is a word holds this word only, and a qualified type ends in a segment. -/
def TypeShape (k : Kind) (cs : List Tree) : Prop :=
  (k.isWord = true → ∃ token, cs = [.leaf none token]) ∧
    (k = .scopedTypeIdentifier → ∃ front r below, cs = front ++ [.node r .typeIdentifier below])

theorem typeShapeOfBuild {rules : N → Rule N} {k : Kind} {parts : Rule N} {cs : List Tree}
    (passed : parts.buildsType k = true) (derives : Derives rules parts cs) : TypeShape k cs := by
  refine ⟨fun word => ?_, fun qualified => ?_⟩
  · have single : parts.isTerminal = true := by
      cases k <;> simp_all [Rule.buildsType, Kind.isWord]
    cases derives with
    | terminal accepted => exact ⟨_, rfl⟩
    | _ => cases single
  · subst qualified
    exact Rule.derivesLast derives (beq_iff_eq.mp passed)

set_option maxRecDepth 2000 in
theorem grammarBuildsTypes (n : Symbol) :
    ((grammar n).nodes.all fun entry => entry.2.buildsType entry.1) = true := by
  cases n with
  | binary level arrows =>
    rcases level with _ | _ | _ | _ | _ | _ | _ | _ | _ | _ | level <;> rfl
  | _ => rfl

theorem parsedTypeShape {source : String} {tree : Tree} (parsed : parse source = .parsed tree) :
    tree.Each TypeShape :=
  parsedEach parsed grammarBuildsTypes fun _ _ _ => typeShapeOfBuild

end JavaAudit.Source
