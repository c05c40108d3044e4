import JavaAudit.Proofs.Cycles.Traversal
import Mathlib.Data.List.Chain
import Mathlib.Logic.Relation

/-! Which cycles a search closes. Path, frames and colours stay in step, so what is closed is a
cycle. Everything that is left has had all its uses followed, so a search from a type that can reach
itself through another type closes a cycle at its root. -/
namespace JavaAudit.Cycles
open Relation (ReflTransGen)

structure IsCycle (uses : String → String → Prop) (cycle : List String) : Prop where
  long : 2 ≤ cycle.length
  distinct : cycle.Nodup
  linked : cycle.IsChain uses
  closed : ∀ head ∈ cycle.head?, ∀ last ∈ cycle.getLast?, uses last head

instance {uses : String → String → Prop} [DecidableRel uses] {cycle : List String} :
    Decidable (IsCycle uses cycle) :=
  decidable_of_iff (2 ≤ cycle.length ∧ cycle.Nodup ∧ cycle.IsChain uses ∧
      ∀ head ∈ cycle.head?, ∀ last ∈ cycle.getLast?, uses last head)
    ⟨fun ⟨long, distinct, linked, closed⟩ => ⟨long, distinct, linked, closed⟩,
      fun isCycle => ⟨isCycle.long, isCycle.distinct, isCycle.linked, isCycle.closed⟩⟩

def Link (next : String → List String) (names : List String) (a b : String) : Prop :=
  a ∈ names ∧ b ∈ next a

structure Coherent (next : String → List String) (names : List String) (root : String)
    (s : Search) : Prop where
  path : s.path = (s.frames.map Frame.node).reverse
  distinct : s.path.Nodup
  known : ∀ name ∈ s.path, name ∈ names
  linked : s.path.IsChain (Link next names)
  pending : ∀ frame ∈ s.frames, ∀ name ∈ frame.pending, name ∈ next frame.node
  coloured : ∀ name, s.colours.get? name = some .inProgress ↔ name ∈ s.path
  rooted : s.frames = [] ∨ s.path.head? = some root
  visited : (s.colours.get? root).isSome = true

variable {next : String → List String} {names : List String} {root : String}

theorem startCoherent (known : root ∈ names) : Coherent next names root (start next root) where
  path := rfl
  distinct := by simp [start]
  known := by simpa [start] using known
  linked := by simp [start]
  pending := by simp [start]
  coloured := by
    intro name
    by_cases same : name = root <;> simp [start, same]
  rooted := .inr rfl
  visited := by simp [start]

theorem visitedInsert {colours : NameMap Colour} {name a : String} {c : Colour} :
    ((colours.insert name c).get? a).isSome = true ↔
      a = name ∨ (colours.get? a).isSome = true := by
  by_cases same : a = name <;> simp [same]

section Frames

variable {node name : String} {pending path : List String} {below : List Frame}
  {colours : NameMap Colour}

theorem Coherent.pathConcat
    (coherent : Coherent next names root ⟨⟨node, pending⟩ :: below, path, colours⟩) :
    path = (below.map Frame.node).reverse ++ [node] := by
  simpa using coherent.path

theorem Coherent.nodeOnPath
    (coherent : Coherent next names root ⟨⟨node, pending⟩ :: below, path, colours⟩) :
    node ∈ path := by
  rw [coherent.pathConcat]
  simp

theorem Coherent.rootOnPath
    (coherent : Coherent next names root ⟨⟨node, pending⟩ :: below, path, colours⟩) :
    root ∈ path :=
  List.mem_of_mem_head? (coherent.rooted.resolve_left (by simp))

theorem Coherent.follow
    (coherent : Coherent next names root ⟨⟨node, name :: pending⟩ :: below, path, colours⟩) :
    Coherent next names root ⟨⟨node, pending⟩ :: below, path, colours⟩ where
  path := coherent.path
  distinct := coherent.distinct
  known := coherent.known
  linked := coherent.linked
  pending := by
    intro frame mem name waiting
    rcases List.mem_cons.mp mem with rfl | mem
    · exact coherent.pending _ List.mem_cons_self name (List.mem_cons_of_mem _ waiting)
    · exact coherent.pending frame (List.mem_cons_of_mem _ mem) name waiting
  coloured := coherent.coloured
  rooted := .inr (coherent.rooted.resolve_left (by simp))
  visited := coherent.visited

theorem Coherent.link
    (coherent : Coherent next names root ⟨⟨node, name :: pending⟩ :: below, path, colours⟩) :
    Link next names node name :=
  ⟨coherent.known node coherent.nodeOnPath,
    coherent.pending _ List.mem_cons_self name List.mem_cons_self⟩

theorem Coherent.leave
    (coherent : Coherent next names root ⟨⟨node, []⟩ :: below, path, colours⟩) :
    Coherent next names root ⟨below, path.dropLast, colours.insert node .done⟩ := by
  have concat := coherent.pathConcat
  subst concat
  have distinct := coherent.distinct
  have rooted := coherent.rooted.resolve_left (by simp)
  have absent : node ∉ (below.map Frame.node).reverse :=
    fun mem => (List.nodup_append.mp distinct).2.2 node mem node (by simp) rfl
  rw [List.dropLast_concat]
  refine ⟨rfl, (List.nodup_append.mp distinct).1,
    fun a mem => coherent.known a (List.mem_append_left _ mem), coherent.linked.left_of_append,
    fun frame mem => coherent.pending frame (List.mem_cons_of_mem _ mem), ?_, ?_, ?_⟩
  · intro a
    by_cases same : a = node
    · subst same
      simpa using absent
    · simpa [same] using coherent.coloured a
  · cases below with
    | nil => exact .inl rfl
    | cons frame rest => exact .inr (by simpa using rooted)
  · exact visitedInsert.mpr (.inr coherent.visited)

theorem Coherent.enter
    (closed : ∀ a, ∀ b ∈ next a, b ∈ names) (fresh : colours.get? name = none)
    (coherent : Coherent next names root ⟨⟨node, name :: pending⟩ :: below, path, colours⟩) :
    Coherent next names root ⟨⟨name, next name⟩ :: ⟨node, pending⟩ :: below, path ++ [name],
      colours.insert name .inProgress⟩ := by
  have followed := coherent.follow
  have link := coherent.link
  have absent : name ∉ path := by
    intro mem
    rw [(coherent.coloured name).mpr mem] at fresh
    contradiction
  have last : path.getLast? = some node := by
    rw [coherent.pathConcat]
    simp
  refine ⟨by simp [coherent.pathConcat], ?_, ?_, ?_, ?_, ?_, ?_, ?_⟩
  · refine List.nodup_append.mpr ⟨coherent.distinct, List.nodup_singleton name, ?_⟩
    intro a mem b single same
    exact absent (List.mem_singleton.mp single ▸ same ▸ mem)
  · intro a mem
    rcases List.mem_append.mp mem with mem | mem
    · exact coherent.known a mem
    · rw [List.mem_singleton.mp mem]
      exact closed node name link.2
  · refine List.isChain_append.mpr ⟨coherent.linked, by simp, ?_⟩
    intro a atEnd b atHead
    rw [last] at atEnd
    cases Option.mem_some_iff.mp atEnd
    cases Option.mem_some_iff.mp atHead
    exact link
  · intro frame mem
    rcases List.mem_cons.mp mem with rfl | mem
    · exact fun _ waiting => waiting
    · exact followed.pending frame mem
  · intro a
    by_cases same : a = name
    · simp [same]
    · simpa [same] using coherent.coloured a
  · have rooted : path.head? = some root := coherent.rooted.resolve_left (by simp)
    exact .inr (by simp [List.head?_append, rooted])
  · exact visitedInsert.mpr (.inr coherent.visited)

theorem closingIsCycle {cycle : List String}
    (coherent : Coherent next names root ⟨⟨node, name :: pending⟩ :: below, path, colours⟩)
    (closes : closing? path node name = some cycle) : IsCycle (Link next names) cycle := by
  have head := closingHead closes
  unfold closing? at closes
  split at closes
  · contradiction
  · next different =>
    obtain ⟨start, found, rfl⟩ := Option.map_eq_some_iff.mp closes
    have last : (path.drop start).getLast? = some node := by
      have bound : start < path.length := (List.idxOf?_eq_some_iff.mp found).1
      rw [List.getLast?_drop, if_neg (by omega), coherent.pathConcat]
      simp
    refine ⟨?_, coherent.distinct.sublist (List.drop_sublist start path),
      coherent.linked.drop start, ?_⟩
    · match shape : path.drop start with
      | [] => simp [shape] at head
      | [only] =>
        simp only [shape, List.head?_cons, List.getLast?_singleton, Option.some.injEq] at head last
        exact absurd (head.symm.trans last) different
      | _ :: _ :: _ => simp
    · intro a atHead b atLast
      rw [head] at atHead
      rw [last] at atLast
      cases Option.mem_some_iff.mp atHead
      cases Option.mem_some_iff.mp atLast
      exact coherent.link

end Frames

theorem moveCoherent (closed : ∀ a, ∀ b ∈ next a, b ∈ names) {s t : Search}
    {found : Option (List String)} (coherent : Coherent next names root s)
    (move : Move next s found t) : Coherent next names root t := by
  cases move with
  | leave => exact coherent.leave
  | enter fresh => exact coherent.enter closed fresh
  | close _ => exact coherent.follow
  | skip _ => exact coherent.follow

/-- Every use of a visited type waits in its frame, or has been followed; a followed use of the root
by another type has closed a cycle at the root. -/
def Settled (next : String → List String) (root : String) (s : Search)
    (seen : List (List String)) : Prop :=
  ∀ a, (s.colours.get? a).isSome = true → ∀ b ∈ next a,
    (∃ frame ∈ s.frames, frame.node = a ∧ b ∈ frame.pending) ∨
    ((s.colours.get? b).isSome = true ∧
      (b = root → a ≠ root → ∃ cycle ∈ seen, cycle.head? = some root))

theorem startSettled : Settled next root (start next root) [] := by
  intro a visited b use
  have same : a = root := by
    by_contra different
    simp [start, different] at visited
  subst same
  exact .inl ⟨⟨a, next a⟩, List.mem_cons_self, rfl, use⟩

theorem Settled.follow {node name : String} {pending path : List String} {below : List Frame}
    {colours : NameMap Colour} {seen : List (List String)} {found : Option (List String)}
    (settled : Settled next root ⟨⟨node, name :: pending⟩ :: below, path, colours⟩ seen)
    (visited : (colours.get? name).isSome = true)
    (closes : name = root → node ≠ root → ∃ cycle ∈ found, cycle.head? = some root) :
    Settled next root ⟨⟨node, pending⟩ :: below, path, colours⟩ (seen ++ found.toList) := by
  intro a known b use
  rcases settled a known b use with ⟨frame, mem, rfl, waiting⟩ | ⟨done, reported⟩
  · rcases List.mem_cons.mp mem with rfl | mem
    · rcases List.mem_cons.mp waiting with rfl | waiting
      · refine .inr ⟨visited, fun same different => ?_⟩
        obtain ⟨cycle, mem, head⟩ := closes same different
        exact ⟨cycle, by simp [Option.mem_def.mp mem], head⟩
      · exact .inl ⟨_, List.mem_cons_self, rfl, waiting⟩
    · exact .inl ⟨frame, List.mem_cons_of_mem _ mem, rfl, waiting⟩
  · refine .inr ⟨done, fun same different => ?_⟩
    obtain ⟨cycle, mem, head⟩ := reported same different
    exact ⟨cycle, List.mem_append_left _ mem, head⟩

theorem moveSettled {s t : Search} {found : Option (List String)} {seen : List (List String)}
    (coherent : Coherent next names root s) (settled : Settled next root s seen)
    (move : Move next s found t) : Settled next root t (seen ++ found.toList) := by
  cases move with
  | @leave node below path colours =>
    have visited : (colours.get? node).isSome = true := by
      rw [(coherent.coloured node).mpr coherent.nodeOnPath]
      rfl
    intro a known b use
    have before : (colours.get? a).isSome = true := by
      rcases visitedInsert.mp known with rfl | before
      · exact visited
      · exact before
    rcases settled a before b use with ⟨frame, mem, rfl, waiting⟩ | ⟨done, reported⟩
    · rcases List.mem_cons.mp mem with rfl | mem
      · simp at waiting
      · exact .inl ⟨frame, mem, rfl, waiting⟩
    · exact .inr ⟨visitedInsert.mpr (.inr done), by simpa using reported⟩
  | @enter node name pending below path colours fresh =>
    intro a known b use
    rcases visitedInsert.mp known with rfl | before
    · exact .inl ⟨_, List.mem_cons_self, rfl, use⟩
    · rcases settled a before b use with ⟨frame, mem, rfl, waiting⟩ | ⟨done, reported⟩
      · rcases List.mem_cons.mp mem with rfl | mem
        · rcases List.mem_cons.mp waiting with rfl | waiting
          · refine .inr ⟨visitedInsert.mpr (.inl rfl), fun same => ?_⟩
            have visited := coherent.visited
            subst same
            simp [fresh] at visited
          · exact .inl ⟨⟨node, pending⟩, by simp, rfl, waiting⟩
        · exact .inl ⟨frame, by simp [mem], rfl, waiting⟩
      · exact .inr ⟨visitedInsert.mpr (.inr done), by simpa using reported⟩
  | @close node name pending below path colours reached =>
    refine settled.follow (by simp [reached]) fun same different => ?_
    subst same
    have mem : name ∈ path := (coherent.coloured name).mp reached
    obtain ⟨start, found⟩ := Option.isSome_iff_exists.mp (List.isSome_idxOf?.mpr mem)
    exact ⟨path.drop start, by simp [closing?, Ne.symm different, found], headOfDrop found⟩
  | @skip node name pending below path colours left =>
    refine settled.follow (by simp [left]) fun same _ => ?_
    subst same
    rw [(coherent.coloured name).mpr coherent.rootOnPath] at left
    contradiction

structure Progress (next : String → List String) (names : List String) (root : String)
    (s : Search) (seen : List (List String)) : Prop where
  coherent : Coherent next names root s
  settled : Settled next root s seen
  sound : ∀ cycle ∈ seen, IsCycle (Link next names) cycle

theorem moveProgress (closed : ∀ a, ∀ b ∈ next a, b ∈ names) {s t : Search}
    {found : Option (List String)} {seen : List (List String)}
    (progress : Progress next names root s seen) (move : Move next s found t) :
    Progress next names root t (seen ++ found.toList) := by
  refine ⟨moveCoherent closed progress.coherent move,
    moveSettled progress.coherent progress.settled move, ?_⟩
  intro cycle mem
  rcases List.mem_append.mp mem with mem | mem
  · exact progress.sound cycle mem
  · cases move with
    | leave | enter | skip => simp at mem
    | close _ => exact closingIsCycle progress.coherent (by simpa using mem)

theorem walkProgress (closed : ∀ a, ∀ b ∈ next a, b ∈ names) (known : root ∈ names)
    {cycles : List (List String)} {t : Search} (walk : Walk next (start next root) cycles t) :
    Progress next names root t cycles := by
  have before : Progress next names root (start next root) [] :=
    ⟨startCoherent known, startSettled, by simp⟩
  simpa using walk.keeps (moveProgress closed) before

theorem lastUse {uses : String → String → Prop} {a b : String} (reach : ReflTransGen uses a b)
    (different : a ≠ b) : ∃ user, user ≠ b ∧ ReflTransGen uses a user ∧ uses user b := by
  induction reach using ReflTransGen.head_induction_on with
  | refl => contradiction
  | @head a c use rest ih =>
    by_cases same : c = b
    · exact ⟨a, different, .refl, same ▸ use⟩
    · obtain ⟨user, other, path, last⟩ := ih same
      exact ⟨user, other, .head use path, last⟩

def Entangled (uses : String → String → Prop) (name : String) : Prop :=
  ∃ other, other ≠ name ∧ ReflTransGen uses name other ∧ ReflTransGen uses other name

theorem walkComplete (closed : ∀ a, ∀ b ∈ next a, b ∈ names)
    {cycles : List (List String)} {t : Search} (walk : Walk next (start next root) cycles t)
    (ended : t.frames = []) (known : root ∈ names) (entangled : Entangled (Link next names) root) :
    ∃ cycle ∈ cycles, cycle.head? = some root := by
  obtain ⟨coherent, settled, -⟩ := walkProgress closed known walk
  have followed : ∀ {a b}, (t.colours.get? a).isSome = true → b ∈ next a →
      (t.colours.get? b).isSome = true ∧
        (b = root → a ≠ root → ∃ cycle ∈ cycles, cycle.head? = some root) := by
    intro a b visited use
    rcases settled a visited b use with ⟨frame, mem, _⟩ | done
    · simp [ended] at mem
    · exact done
  have visited : ∀ {a}, ReflTransGen (Link next names) root a →
      (t.colours.get? a).isSome = true := by
    intro a reach
    induction reach with
    | refl => exact coherent.visited
    | tail _ link ih => exact (followed ih link.2).1
  obtain ⟨other, different, out, back⟩ := entangled
  obtain ⟨user, apart, reach, link⟩ := lastUse back different
  exact (followed (visited (out.trans reach)) link.2).2 rfl apart

theorem sweepSound (closed : ∀ a, ∀ b ∈ next a, b ∈ names) {roots : List String}
    {cycles : List (List String)} (sweep : Sweep next roots cycles)
    (known : ∀ name ∈ roots, name ∈ names) :
    ∀ cycle ∈ cycles, IsCycle (Link next names) cycle := by
  induction sweep with
  | nil => simp
  | root walk _ rest ih =>
    intro cycle mem
    rcases List.mem_append.mp mem with mem | mem
    · exact (walkProgress closed (known _ List.mem_cons_self) walk).sound cycle mem
    · exact ih (fun name h => known name (List.mem_cons_of_mem _ h)) cycle mem

theorem sweepComplete (closed : ∀ a, ∀ b ∈ next a, b ∈ names) {roots : List String}
    {cycles : List (List String)} (sweep : Sweep next roots cycles) {name : String}
    (mem : name ∈ roots) (known : name ∈ names) (entangled : Entangled (Link next names) name) :
    ∃ cycle ∈ cycles, cycle.head? = some name := by
  induction sweep with
  | nil => simp at mem
  | @root first roots earlier later s walk ended rest ih =>
    rcases List.mem_cons.mp mem with rfl | mem
    · obtain ⟨cycle, mem, head⟩ := walkComplete closed walk ended known entangled
      exact ⟨cycle, List.mem_append_left _ mem, head⟩
    · obtain ⟨cycle, mem, head⟩ := ih mem
      exact ⟨cycle, List.mem_append_right _ mem, head⟩

def Uses (symbols : SymbolTable) (g : DependencyGraph) (a b : String) : Prop :=
  symbols.contains a = true ∧ symbols.contains b = true ∧ g.hasEdge a b = true

instance {symbols : SymbolTable} {g : DependencyGraph} : DecidableRel (Uses symbols g) :=
  fun _ _ => inferInstanceAs (Decidable (_ ∧ _ ∧ _))

theorem linkSuccessors (symbols : SymbolTable) (g : DependencyGraph) :
    Link (successors symbols g) symbols.names = Uses symbols g := by
  funext a b
  simp only [Link, Uses, memSuccessors, SymbolTable.memNames, eq_iff_iff]
  tauto

theorem entangledKnown {symbols : SymbolTable} {g : DependencyGraph} {name : String}
    (entangled : Entangled (Uses symbols g) name) : symbols.contains name = true := by
  obtain ⟨other, different, -, back⟩ := entangled
  obtain ⟨user, -, -, use⟩ := lastUse back different
  exact use.2.1

theorem findRecords (symbols : SymbolTable) (g : DependencyGraph) :
    ∃ cycles : List (List String), (∀ cycle ∈ cycles, IsCycle (Uses symbols g) cycle) ∧
      (∀ name, Entangled (Uses symbols g) name → ∃ cycle ∈ cycles, cycle.head? = some name) ∧
      ∀ withoutRepeats, find withoutRepeats symbols g =
        (cycles.foldl (Findings.record withoutRepeats) .empty).cycles := by
  have closed := successorsKnown symbols g
  obtain ⟨cycles, sweep, same⟩ := runsSweep closed fun root (mem : root ∈ symbols.names) => mem
  refine ⟨cycles, ?_, ?_, fun w => by rw [find, same]⟩
  · rw [← linkSuccessors]
    exact sweepSound closed sweep fun _ mem => mem
  · intro name entangled
    have known := SymbolTable.memNames.mpr (entangledKnown entangled)
    rw [← linkSuccessors] at entangled
    exact sweepComplete closed sweep known known entangled

end JavaAudit.Cycles
