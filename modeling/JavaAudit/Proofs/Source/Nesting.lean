import JavaAudit.Proofs.Source.Derivation
import JavaAudit.Proofs.Source.Spots

/-! Where bodies and members may stand. A check of the rules, one by one, shows that every tree that is
parsed keeps members in bodies and bodies in what they are the bodies of. -/
namespace JavaAudit.Source

/-- The kinds of trees that a tree of this kind may stand right below, where not all are. -/
def Kind.places? : Kind → Option (List Kind)
  | .methodDeclaration | .constructorDeclaration | .compactConstructor =>
      some [.classBody, .interfaceBody, .enumBodyDeclarations, .program]
  | .classBody => some [.classDeclaration, .recordDeclaration, .objectCreation, .enumConstant]
  | .interfaceBody => some [.interfaceDeclaration]
  | .enumBodyDeclarations => some [.enumBody]
  | .enumBody => some [.enumDeclaration]
  | .program => some []
  | _ => none

def Kind.mayHold (parent child : Kind) : Bool := child.places?.all (·.contains parent)

namespace Rule

variable {N : Type} (known : N → List Kind)

mutual

def tops : Rule N → List Kind
  | .nothing | .terminal _ => []
  | .both first next => first.tops ++ next.tops
  | .either first other => first.tops ++ other.tops
  | .many item | .playing _ item | .given _ item | .only _ item => item.tops
  | .node kind _ => [kind].filter (·.places?.isSome)
  | .choose _ cases other => topsOfCases cases ++ other.tops
  | .chain item links => item.tops ++ (links.map (·.2.2.1)).filter (·.places?.isSome)
  | .named n => known n

def topsOfCases : List (String × Rule N) → List Kind
  | [] => []
  | (_, rule) :: rest => rule.tops ++ topsOfCases rest

end

mutual

def nests : Rule N → Bool
  | .nothing | .terminal _ | .named _ => true
  | .both first next => first.nests && next.nests
  | .either first other => first.nests && other.nests
  | .many item | .playing _ item | .given _ item | .only _ item => item.nests
  | .node kind parts => (parts.tops known).all kind.mayHold && parts.nests
  | .choose _ cases other => nestsCases cases && other.nests
  | .chain item links => item.nests && nestsLinks ((Rule.chain item links).tops known) links

def nestsCases : List (String × Rule N) → Bool
  | [] => true
  | (_, rule) :: rest => rule.nests && nestsCases rest

def nestsLinks (before : List Kind) : List (List Kind × Option Role × Kind × Rule N) → Bool
  | [] => true
  | (_, _, kind, parts) :: rest =>
      (before ++ parts.tops known).all kind.mayHold && parts.nests && nestsLinks before rest

end

end Rule

inductive Tree.Nested : Tree → Prop
  | leaf (r : Option Role) (token : Token) : Nested (.leaf r token)
  | node (r : Option Role) (k : Kind) (cs : List Tree) (below : ∀ c ∈ cs, Nested c)
      (placed : ∀ c ∈ cs, ∀ j, c.kind? = some j → k.mayHold j = true) : Nested (.node r k cs)

theorem Tree.nestedWithRole {t : Tree} (role : Role) (nested : t.Nested) :
    (t.withRole role).Nested := by
  cases nested with
  | leaf r token => exact .leaf _ token
  | node r k cs below placed => exact .node _ k cs below placed

@[simp] theorem Tree.kindWithRole (role : Role) (t : Tree) : (t.withRole role).kind? = t.kind? := by
  cases t <;> rfl

/-- A tree that is nested well and on top is of one of these kinds or free to stand anywhere. -/
structure Admitted (kinds : List Kind) (t : Tree) : Prop where
  nested : t.Nested
  top : ∀ k, t.kind? = some k → k.places?.isSome = true → k ∈ kinds

namespace Admitted

variable {kinds more : List Kind} {t : Tree}

theorem mono (admitted : Admitted kinds t) (less : kinds ⊆ more) : Admitted more t :=
  ⟨admitted.nested, fun k kind limited => less (admitted.top k kind limited)⟩

theorem withRole (admitted : Admitted kinds t) (role : Role) : Admitted kinds (t.withRole role) :=
  ⟨Tree.nestedWithRole role admitted.nested, by simpa using admitted.top⟩

theorem placed (admitted : Admitted kinds t) {parent : Kind}
    (holds : kinds.all parent.mayHold = true) {k : Kind} (kind : t.kind? = some k) :
    parent.mayHold k = true := by
  cases limited : k.places? with
  | none => simp [Kind.mayHold, limited]
  | some parents =>
    exact List.all_eq_true.mp holds k (admitted.top k kind (by rw [limited]; rfl))

theorem node {parent : Kind} {ts : List Tree} (below : ∀ t ∈ ts, Admitted kinds t)
    (holds : kinds.all parent.mayHold = true) :
    Admitted ([parent].filter (·.places?.isSome)) (.node none parent ts) := by
  refine ⟨.node _ _ _ (fun t mem => (below t mem).nested)
    fun t mem k kind => (below t mem).placed holds kind, fun k kind limited => ?_⟩
  cases kind
  simpa using limited

end Admitted

namespace Rule

variable {N : Type} {known : N → List Kind}

theorem caseNests {cases : List (String × Rule N)} {word : String} {rule : Rule N}
    (listed : (word, rule) ∈ cases) :
    rule.tops known ⊆ topsOfCases known cases ∧
      (nestsCases known cases = true → rule.nests known = true) := by
  induction cases with
  | nil => cases listed
  | cons first rest ih =>
    obtain ⟨other, here⟩ := first
    simp only [topsOfCases, nestsCases, Bool.and_eq_true]
    rcases List.mem_cons.mp listed with same | listed
    · cases same
      exact ⟨List.subset_append_left _ _, And.left⟩
    · obtain ⟨tops, nests⟩ := ih listed
      exact ⟨List.subset_append_of_subset_right _ tops, fun both => nests both.2⟩

theorem linkNests {before : List Kind} {links : List (List Kind × Option Role × Kind × Rule N)}
    {kinds : List Kind} {role : Option Role} {kind : Kind} {parts : Rule N}
    (listed : (kinds, role, kind, parts) ∈ links) (nests : nestsLinks known before links = true) :
    (before ++ parts.tops known).all kind.mayHold = true ∧ parts.nests known = true := by
  induction links with
  | nil => cases listed
  | cons first rest ih =>
    obtain ⟨others, otherRole, other, otherParts⟩ := first
    simp only [nestsLinks, Bool.and_eq_true] at nests
    rcases List.mem_cons.mp listed with same | listed
    · cases same
      exact nests.1
    · exact ih listed nests.2

end Rule

theorem admittedLink {kinds : List Kind} {role : Option Role} {ts : List Tree}
    (before : ∀ t ∈ ts, Admitted kinds t) : ∀ t ∈ linkTo role ts, Admitted kinds t := by
  cases role with
  | none => exact before
  | some r =>
    intro t mem
    obtain ⟨u, within, rfl⟩ := List.mem_map.mp mem
    exact (before u within).withRole r

variable {N : Type}

def Keeps (rules : N → Rule N) (known : N → List Kind) : Prop :=
  ∀ n, ((rules n).nests known && ((rules n).tops known).all (known n).contains) = true

theorem Keeps.named {rules : N → Rule N} {known : N → List Kind} (keeps : Keeps rules known)
    (n : N) : (rules n).nests known = true ∧ (rules n).tops known ⊆ known n := by
  obtain ⟨nests, tops⟩ := Bool.and_eq_true_iff.mp (keeps n)
  exact ⟨nests, fun k mem => List.contains_iff_mem.mp (List.all_eq_true.mp tops k mem)⟩

theorem derivesAdmitted {rules : N → Rule N} {known : N → List Kind} (keeps : Keeps rules known)
    {rule : Rule N} {ts : List Tree} (derives : Derives rules rule ts)
    (nests : rule.nests known = true) : ∀ t ∈ ts, Admitted (rule.tops known) t := by
  induction derives with
  | nothing => simp
  | terminal accepted =>
    intro t mem
    obtain rfl := List.mem_singleton.mp mem
    exact ⟨.leaf _ _, by simp [Tree.kind?]⟩
  | both left right first next =>
    simp only [Rule.nests, Bool.and_eq_true] at nests
    intro t mem
    rcases List.mem_append.mp mem with mem | mem
    · exact (first nests.1 t mem).mono (List.subset_append_left _ _)
    · exact (next nests.2 t mem).mono (List.subset_append_right _ _)
  | first taken ih =>
    simp only [Rule.nests, Bool.and_eq_true] at nests
    exact fun t mem => (ih nests.1 t mem).mono (List.subset_append_left _ _)
  | second taken ih =>
    simp only [Rule.nests, Bool.and_eq_true] at nests
    exact fun t mem => (ih nests.2 t mem).mono (List.subset_append_right _ _)
  | none => simp
  | more one rest first next =>
    intro t mem
    rcases List.mem_append.mp mem with mem | mem
    · exact first nests t mem
    · exact next nests t mem
  | node below ih =>
    simp only [Rule.nests, Bool.and_eq_true] at nests
    intro t mem
    obtain rfl := List.mem_singleton.mp mem
    exact .node (ih nests.2) nests.1
  | playing same ih =>
    intro t mem
    obtain ⟨u, within, rfl⟩ := List.mem_map.mp mem
    exact (ih nests u within).withRole _
  | given same ih => exact ih nests
  | chosen listed same ih =>
    simp only [Rule.nests, Bool.and_eq_true] at nests
    obtain ⟨tops, within⟩ := @Rule.caseNests _ known _ _ _ listed
    intro t mem
    exact (ih (within nests.1) t mem).mono (List.subset_append_of_subset_left _ tops)
  | otherwise same ih =>
    simp only [Rule.nests, Bool.and_eq_true] at nests
    exact fun t mem => (ih nests.2 t mem).mono (List.subset_append_right _ _)
  | item same ih =>
    simp only [Rule.nests, Bool.and_eq_true] at nests
    exact fun t mem => (ih nests.1 t mem).mono (List.subset_append_left _ _)
  | link listed before fitting below ih down =>
    obtain ⟨holds, within⟩ := Rule.linkNests listed (Bool.and_eq_true_iff.mp nests).2
    intro t mem
    obtain rfl := List.mem_singleton.mp mem
    refine (Admitted.node (fun u mem => ?_) holds).mono fun k mem => ?_
    · rcases List.mem_append.mp mem with mem | mem
      · exact (admittedLink (ih nests) u mem).mono (List.subset_append_left _ _)
      · exact (down within u mem).mono (List.subset_append_right _ _)
    · obtain ⟨same, limited⟩ := List.mem_filter.mp mem
      obtain rfl := List.mem_singleton.mp same
      refine List.mem_append_right _ (List.mem_filter.mpr ⟨?_, limited⟩)
      exact List.mem_map_of_mem (f := (·.2.2.1)) listed
  | only same fitting ih => exact ih nests
  | named same ih =>
    obtain ⟨within, tops⟩ := keeps.named _
    exact fun t mem => (ih within t mem).mono tops

def Symbol.tops : Symbol → List Kind
  | .member => [.methodDeclaration, .constructorDeclaration, .compactConstructor]
  | .methodDeclaration | .topLevel => [.methodDeclaration]
  | .classBody => [.classBody]
  | .program => [.program]
  | _ => []

theorem grammarKeeps : Keeps grammar Symbol.tops := by
  intro n
  cases n with
  | binary level arrows =>
    -- Ten levels have operators; those beyond are operands.
    rcases level with _ | _ | _ | _ | _ | _ | _ | _ | _ | _ | level <;> rfl
  | _ => rfl

theorem parsedNested {source : String} {tree : Tree} (parsed : parse source = .parsed tree) :
    tree.Nested :=
  (derivesAdmitted grammarKeeps (parsedDerives parsed) rfl tree List.mem_cons_self).nested

theorem nestedSpot {tree : Tree} (nested : tree.Nested) {p : Spot} (within : p ∈ tree.spots) :
    p.tree.Nested := by
  refine Spot.inherits (fun {t c} above mem => ?_) nested within
  cases above with
  | leaf r token => cases mem
  | node r k cs below placed => exact below c mem

theorem placedBelow {tree : Tree} (nested : tree.Nested) {q : Spot} {i : Nat} {t : Tree} {k : Kind}
    (within : .child q i t ∈ tree.spots) (kind : t.kind? = some k) :
    ∃ j, q.tree.kind? = some j ∧ j.mayHold k = true := by
  obtain ⟨above, found⟩ := Tree.memSpots.mp within
  have mem := List.mem_of_getElem? found
  have around := nestedSpot nested above
  cases shape : q.tree with
  | leaf r token => simp [shape, Tree.children] at mem
  | node r j cs =>
    rw [shape] at mem around
    cases around with
    | node _ _ _ _ placed => exact ⟨j, rfl, placed t mem k kind⟩

end JavaAudit.Source
