import JavaAudit.Detect.Cycles
import JavaAudit.Proofs.Names

/-! The search for cycles, apart from what becomes of the cycles it closes. Where the search goes
does not depend on the findings: both ways of reporting see the same closed cycles in the same
order. The number of steps that a search is given is always enough. -/
namespace JavaAudit.Cycles

def closing? (path : List String) (current name : String) : Option (List String) :=
  if name = current then none else (path.idxOf? name).map path.drop

def Findings.record (withoutRepeats : Bool) (f : Findings) (cycle : List String) : Findings :=
  match cycle.head? with
  | none => f
  | some head => if head ∈ f.heads then f else f.add withoutRepeats head cycle

theorem headOfDrop {path : List String} {name : String} {start : Nat}
    (found : path.idxOf? name = some start) : (path.drop start).head? = some name := by
  obtain ⟨bound, same, _⟩ := List.idxOf?_eq_some_iff.mp found
  rw [List.head?_drop, List.getElem?_eq_getElem bound, same]

theorem closingHead {path cycle : List String} {current name : String}
    (closed : closing? path current name = some cycle) : cycle.head? = some name := by
  unfold closing? at closed
  split at closed
  · contradiction
  · obtain ⟨start, found, rfl⟩ := Option.map_eq_some_iff.mp closed
    exact headOfDrop found

theorem closeRecords (withoutRepeats : Bool) (f : Findings) (path : List String)
    (current name : String) : f.close withoutRepeats path current name =
      (closing? path current name).toList.foldl (Findings.record withoutRepeats) f := by
  unfold Findings.close closing?
  by_cases self : name = current
  · simp [self]
  · cases found : path.idxOf? name with
    | none => simp [self]
    | some start => simp [self, Findings.record, headOfDrop found]

inductive Move (next : String → List String) : Search → Option (List String) → Search → Prop where
  | leave {node below path colours} : Move next ⟨⟨node, []⟩ :: below, path, colours⟩ none
      ⟨below, path.dropLast, colours.insert node .done⟩
  | enter {node name pending below path colours} (fresh : colours.get? name = none) :
      Move next ⟨⟨node, name :: pending⟩ :: below, path, colours⟩ none
        ⟨⟨name, next name⟩ :: ⟨node, pending⟩ :: below, path ++ [name],
          colours.insert name .inProgress⟩
  | close {node name pending below path colours} (reached : colours.get? name = some .inProgress) :
      Move next ⟨⟨node, name :: pending⟩ :: below, path, colours⟩ (closing? path node name)
        ⟨⟨node, pending⟩ :: below, path, colours⟩
  | skip {node name pending below path colours} (left : colours.get? name = some .done) :
      Move next ⟨⟨node, name :: pending⟩ :: below, path, colours⟩ none
        ⟨⟨node, pending⟩ :: below, path, colours⟩

theorem stepMoves (next : String → List String) (s : Search) :
    (s.frames = [] ∧ ∀ withoutRepeats f, step next withoutRepeats s f = none) ∨
    ∃ found t, Move next s found t ∧ ∀ withoutRepeats f, step next withoutRepeats s f =
      some (t, found.toList.foldl (Findings.record withoutRepeats) f) := by
  obtain ⟨frames, path, colours⟩ := s
  match frames with
  | [] => exact .inl ⟨rfl, fun _ _ => rfl⟩
  | ⟨node, []⟩ :: below => exact .inr ⟨none, _, .leave, fun _ _ => rfl⟩
  | ⟨node, name :: pending⟩ :: below =>
    refine .inr ?_
    cases colour : colours.get? name with
    | none => exact ⟨none, _, .enter colour, fun _ _ => by simp [step, colour]⟩
    | some c => cases c with
      | inProgress =>
        exact ⟨_, _, .close colour, fun _ _ => by simp [step, colour, closeRecords]⟩
      | done => exact ⟨none, _, .skip colour, fun _ _ => by simp [step, colour]⟩

inductive Walk (next : String → List String) : Search → List (List String) → Search → Prop where
  | stay (s : Search) : Walk next s [] s
  | move {s t u found closed} (first : Move next s found t) (rest : Walk next t closed u) :
      Walk next s (found.toList ++ closed) u

variable {next : String → List String} {names : List String}

theorem Walk.keeps {P : Search → List (List String) → Prop}
    (moveKeeps : ∀ {s t found seen}, P s seen → Move next s found t → P t (seen ++ found.toList))
    {s t : Search} {closed seen : List (List String)} (walk : Walk next s closed t)
    (before : P s seen) : P t (seen ++ closed) := by
  induction walk generalizing seen with
  | stay s => simpa using before
  | move first rest ih =>
    have after := ih (moveKeeps before first)
    rwa [List.append_assoc] at after

def Within (names : List String) (s : Search) : Prop :=
  ∀ frame ∈ s.frames, ∀ name ∈ frame.pending, name ∈ names

theorem startWithin (closed : ∀ a, ∀ b ∈ next a, b ∈ names) (root : String) :
    Within names (start next root) := by
  intro frame mem name pending
  rw [List.mem_singleton.mp mem] at pending
  exact closed root name pending

theorem Within.follow {node name : String} {pending path : List String} {below : List Frame}
    {colours : NameMap Colour}
    (within : Within names ⟨⟨node, name :: pending⟩ :: below, path, colours⟩) :
    name ∈ names ∧ Within names ⟨⟨node, pending⟩ :: below, path, colours⟩ := by
  refine ⟨within _ List.mem_cons_self name List.mem_cons_self, fun frame mem name waiting => ?_⟩
  rcases List.mem_cons.mp mem with rfl | mem
  · exact within _ List.mem_cons_self name (List.mem_cons_of_mem _ waiting)
  · exact within frame (List.mem_cons_of_mem _ mem) name waiting

theorem moveWithin (closed : ∀ a, ∀ b ∈ next a, b ∈ names) {s t : Search}
    {found : Option (List String)} (within : Within names s) (move : Move next s found t) :
    Within names t := by
  cases move with
  | leave => exact fun frame mem => within frame (List.mem_cons_of_mem _ mem)
  | enter fresh =>
    intro frame mem name waiting
    rcases List.mem_cons.mp mem with rfl | mem
    · exact closed _ name waiting
    · exact within.follow.2 frame mem name waiting
  | close _ | skip _ => exact within.follow.2

def stepsFor (next : String → List String) (names : List String) : Nat :=
  (names.map fun name => (next name).length + 1).foldr (· + ·) 0

theorem stepsForOthers (next : String → List String) (name : String) (names : List String) :
    stepsFor next (names.filter (· ≠ name)) +
      (if name ∈ names then (next name).length + 1 else 0) ≤ stepsFor next names := by
  induction names with
  | nil => simp [stepsFor]
  | cons a rest ih =>
    by_cases same : a = name
    · subst same
      rw [List.filter_cons_of_neg (by simp), if_pos List.mem_cons_self]
      simp only [stepsFor, List.map_cons, List.foldr_cons] at ih ⊢
      omega
    · rw [List.filter_cons_of_pos (by simpa using same)]
      simp only [stepsFor, List.map_cons, List.foldr_cons, List.mem_cons, Ne.symm same,
        false_or] at ih ⊢
      omega

def unvisited (colours : NameMap Colour) (names : List String) : List String :=
  names.filter fun name => (colours.get? name).isNone

theorem unvisitedInsert (colours : NameMap Colour) (name : String) (c : Colour)
    (names : List String) :
    unvisited (colours.insert name c) names = (unvisited colours names).filter (· ≠ name) := by
  rw [unvisited, unvisited, List.filter_filter]
  refine List.filter_congr fun a _ => ?_
  by_cases same : a = name <;> simp [same]

def work (next : String → List String) (names : List String) (s : Search) : Nat :=
  (s.frames.map fun frame => frame.pending.length + 1).foldr (· + ·) 0 +
    stepsFor next (unvisited s.colours names)

theorem moveWork {s t : Search} {found : Option (List String)} (within : Within names s)
    (move : Move next s found t) :
    work next names t < work next names s := by
  cases move with
  | @leave node below path colours =>
    have fewer := stepsForOthers next node (unvisited colours names)
    simp only [work, unvisitedInsert, List.map_cons, List.foldr_cons, List.length_nil]
    omega
  | @enter node name pending below path colours fresh =>
    have mem : name ∈ unvisited colours names := by simp [unvisited, within.follow.1, fresh]
    have fewer := stepsForOthers next name (unvisited colours names)
    rw [if_pos mem] at fewer
    simp only [work, unvisitedInsert, List.map_cons, List.foldr_cons, List.length_cons]
    omega
  | close _ | skip _ => simp [work]

theorem startWork {root : String} (mem : root ∈ names) :
    work next names (start next root) ≤ effort next names := by
  have fewer := stepsForOthers next root names
  rw [if_pos mem] at fewer
  have all : unvisited .empty names = names := by simp [unvisited]
  have total : effort next names = stepsFor next names + 1 := rfl
  simp only [work, start, unvisitedInsert, all, List.map_cons, List.foldr_cons, List.map_nil,
    List.foldr_nil]
  omega

theorem idleEnds {s : Search} (idle : work next names s ≤ 0) : s.frames = [] := by
  cases frames : s.frames with
  | nil => rfl
  | cons frame below => simp [work, frames] at idle

theorem runWalks (closed : ∀ a, ∀ b ∈ next a, b ∈ names) {steps : Nat} {s : Search}
    (within : Within names s) (enough : work next names s ≤ steps) :
    ∃ cycles t, Walk next s cycles t ∧ t.frames = [] ∧ ∀ withoutRepeats f,
      run next withoutRepeats steps s f = cycles.foldl (Findings.record withoutRepeats) f := by
  induction steps generalizing s with
  | zero => exact ⟨[], s, .stay s, idleEnds enough, fun _ _ => rfl⟩
  | succ steps ih =>
    rcases stepMoves next s with ⟨empty, ended⟩ | ⟨found, t, move, moved⟩
    · exact ⟨[], s, .stay s, empty, fun w f => by simp [run, ended]⟩
    · have less := moveWork within move
      obtain ⟨cycles, u, walk, empty, same⟩ := ih (moveWithin closed within move) (by omega)
      refine ⟨found.toList ++ cycles, u, .move move walk, empty, fun w f => ?_⟩
      simp only [run, moved, same, List.foldl_append]

theorem stepAgrees {other : String → List String} (same : ∀ a ∈ names, other a = next a)
    (withoutRepeats : Bool) {s : Search} (within : Within names s) (f : Findings) :
    step other withoutRepeats s f = step next withoutRepeats s f := by
  obtain ⟨frames, path, colours⟩ := s
  match frames, within with
  | [], _ => rfl
  | ⟨node, []⟩ :: below, _ => rfl
  | ⟨node, name :: pending⟩ :: below, within => simp only [step, same name within.follow.1]

theorem runAgrees {other : String → List String} (closed : ∀ a, ∀ b ∈ next a, b ∈ names)
    (same : ∀ a ∈ names, other a = next a) (withoutRepeats : Bool) (steps : Nat) {s : Search}
    (within : Within names s) (f : Findings) :
    run other withoutRepeats steps s f = run next withoutRepeats steps s f := by
  induction steps generalizing s f with
  | zero => rfl
  | succ steps ih =>
    have agrees := stepAgrees same withoutRepeats within f
    rcases stepMoves next s with ⟨_, ended⟩ | ⟨found, t, move, moved⟩
    · simp only [run, agrees, ended]
    · simp only [run, agrees, moved]
      exact ih (moveWithin closed within move) _

inductive Sweep (next : String → List String) : List String → List (List String) → Prop where
  | nil : Sweep next [] []
  | root {root roots cycles later s} (walk : Walk next (start next root) cycles s)
      (ended : s.frames = []) (rest : Sweep next roots later) :
      Sweep next (root :: roots) (cycles ++ later)

theorem runsSweep (closed : ∀ a, ∀ b ∈ next a, b ∈ names) {roots : List String}
    (known : ∀ root ∈ roots, root ∈ names) :
    ∃ cycles, Sweep next roots cycles ∧ ∀ withoutRepeats f,
      roots.foldl (fun f root =>
        run next withoutRepeats (effort next names) (start next root) f) f =
      cycles.foldl (Findings.record withoutRepeats) f := by
  induction roots with
  | nil => exact ⟨[], .nil, fun _ _ => rfl⟩
  | cons root roots ih =>
    have mem := known root List.mem_cons_self
    obtain ⟨cycles, s, walk, ended, same⟩ :=
      runWalks closed (startWithin closed root) (startWork mem)
    obtain ⟨later, sweep, others⟩ := ih fun other h => known other (List.mem_cons_of_mem _ h)
    refine ⟨cycles ++ later, .root walk ended sweep, fun w f => ?_⟩
    rw [List.foldl_cons, same, others, List.foldl_append]

theorem memSuccessors {symbols : SymbolTable} {g : DependencyGraph} {a b : String} :
    b ∈ successors symbols g a ↔ g.hasEdge a b = true ∧ symbols.contains b = true := by
  simp [successors, DependencyGraph.dependenciesOf, DependencyGraph.hasEdge, NameSet.memDef]

theorem successorsKnown (symbols : SymbolTable) (g : DependencyGraph) :
    ∀ a, ∀ b ∈ successors symbols g a, b ∈ symbols.names :=
  fun _ _ mem => SymbolTable.memNames.mpr (memSuccessors.mp mem).2

end JavaAudit.Cycles
