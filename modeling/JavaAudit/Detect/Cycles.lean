import JavaAudit.Graph.Basic
import JavaAudit.SymbolTable

/-! Cycles among the types of a project. From every declared type, in order of name, a depth-first
search follows the uses of declared types; a use of a type on the current path closes a cycle that
begins with that type. No two reported cycles begin with the same type. -/
namespace JavaAudit.Cycles

inductive Colour where
  | inProgress | done
  deriving DecidableEq, Repr, Inhabited

structure Frame where
  node : String
  pending : List String
  deriving DecidableEq, Repr, Inhabited

structure Search where
  /-- The innermost frame comes first. -/
  frames : List Frame
  /-- The innermost type comes last. -/
  path : List String
  colours : NameMap Colour
  deriving DecidableEq, Inhabited

structure Findings where
  heads : NameSet
  rotations : List (List String)
  cycles : List (List String)
  deriving DecidableEq, Inhabited

def Findings.empty : Findings := ⟨.empty, [], []⟩

def smallestIndex : List String → Nat
  | [] => 0
  | [_] => 0
  | x :: y :: rest =>
      let i := smallestIndex (y :: rest)
      if (y :: rest).getD i x < x then i + 1 else 0

def canonicalRotation (cycle : List String) : List String :=
  let i := smallestIndex cycle
  cycle.drop i ++ cycle.take i

/-- Takes a cycle into account. Without repeats, a rotation of an earlier cycle is dropped. -/
def Findings.add (withoutRepeats : Bool) (f : Findings) (head : String) (cycle : List String) :
    Findings :=
  let key := canonicalRotation cycle
  if withoutRepeats then
    if key ∈ f.rotations then f
    else ⟨f.heads.insert head, key :: f.rotations, f.cycles ++ [cycle]⟩
  else ⟨f.heads.insert head, f.rotations, f.cycles ++ [cycle]⟩

/-- What the use of a type on the path adds. A use of itself is no cycle. -/
def Findings.close (withoutRepeats : Bool) (f : Findings) (path : List String)
    (current next : String) : Findings :=
  if next = current ∨ next ∈ f.heads then f
  else match path.idxOf? next with
    | none => f
    | some start => f.add withoutRepeats next (path.drop start)

def successors (symbols : SymbolTable) (g : DependencyGraph) (name : String) : List String :=
  (g.dependenciesOf name).filter symbols.contains

def start (next : String → List String) (root : String) : Search :=
  ⟨[⟨root, next root⟩], [root], NameMap.empty.insert root .inProgress⟩

def step (next : String → List String) (withoutRepeats : Bool) (s : Search) (f : Findings) :
    Option (Search × Findings) :=
  match s.frames with
  | [] => none
  | ⟨node, []⟩ :: below => some (⟨below, s.path.dropLast, s.colours.insert node .done⟩, f)
  | ⟨node, name :: pending⟩ :: below =>
      let frames := ⟨node, pending⟩ :: below
      match s.colours.get? name with
      | none =>
          some (⟨⟨name, next name⟩ :: frames, s.path ++ [name],
            s.colours.insert name .inProgress⟩, f)
      | some .inProgress => some ({ s with frames }, f.close withoutRepeats s.path node name)
      | some .done => some ({ s with frames }, f)

def run (next : String → List String) (withoutRepeats : Bool) : Nat → Search → Findings → Findings
  | 0, _, f => f
  | effort + 1, s, f => match step next withoutRepeats s f with
      | none => f
      | some (s, f) => run next withoutRepeats effort s f

def effort (next : String → List String) (names : List String) : Nat :=
  (names.map fun name => (next name).length + 1).foldr (· + ·) 0 + 1

def find (withoutRepeats : Bool) (symbols : SymbolTable) (g : DependencyGraph) :
    List (List String) :=
  let next := successors symbols g
  (symbols.names.foldl
    (fun f root => run next withoutRepeats (effort next symbols.names) (start next root) f)
    .empty).cycles

def render (cycle : List String) : String :=
  " -> ".intercalate ((cycle ++ cycle.take 1).map simpleName)

end JavaAudit.Cycles
