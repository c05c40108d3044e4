import JavaAudit.Proofs.Cycles.Reporting

/-! In which order cycles are reported. The searches begin with the types in increasing order, and a
search reports only cycles that its first type can come to. Where nothing is left out, a type on a
cycle has its report by the end of its own search, so a search reports no head before its first type.
It may still report later heads in any order, and before the search of a smaller type. -/
namespace JavaAudit.Cycles
open Relation (ReflTransGen)

theorem foldAdds (withoutRepeats : Bool) (cycles : List (List String)) (f : Findings) :
    ∃ found, found.Sublist cycles ∧
      Adds f found (cycles.foldl (Findings.record withoutRepeats) f) := by
  induction cycles generalizing f with
  | nil => exact ⟨[], List.Sublist.refl _, .nothing f⟩
  | cons cycle cycles ih =>
    obtain ⟨first, among, adds⟩ := recordAdds withoutRepeats f cycle
    obtain ⟨later, others, more⟩ := ih (f.record withoutRepeats cycle)
    refine ⟨first ++ later, among.append others, ?_, fun name mem => ?_, ?_⟩
    · rw [List.foldl_cons, more.cycles, adds.cycles, List.append_assoc]
    · exact more.heads name (adds.heads name mem)
    · intro other mem head atHead
      rcases List.mem_append.mp mem with mem | mem
      · exact adds.fresh other mem head atHead
      · exact fun known => more.fresh other mem head atHead (adds.heads head known)

structure ClosedFrom (uses : String → String → Prop) (root : String) (cycle : List String) :
    Prop where
  isCycle : IsCycle uses cycle
  reached : ∀ head ∈ cycle.head?, ReflTransGen uses root head
  rooted : root ∈ cycle → cycle.head? = some root

section Searching

variable {next : String → List String} {names : List String} {root : String}

theorem Coherent.reaches {s : Search} (coherent : Coherent next names root s) {name : String}
    (mem : name ∈ s.path) : ReflTransGen (Link next names) root name := by
  have ordered : s.path.Pairwise (ReflTransGen (Link next names)) :=
    List.isChain_iff_pairwise.mp (coherent.linked.imp fun _ _ use => .single use)
  rcases coherent.rooted with empty | first
  · simp [coherent.path, empty] at mem
  · obtain ⟨rest, shape⟩ := List.head?_eq_some_iff.mp first
    rw [shape] at mem ordered
    rcases List.mem_cons.mp mem with rfl | mem
    · exact .refl
    · exact (List.pairwise_cons.mp ordered).1 name mem

theorem closingDrops {path cycle : List String} {current name : String}
    (closes : closing? path current name = some cycle) : ∃ start, path.drop start = cycle := by
  unfold closing? at closes
  split at closes
  · contradiction
  · obtain ⟨start, -, same⟩ := Option.map_eq_some_iff.mp closes
    exact ⟨start, same⟩

theorem closingClosedFrom {node name : String} {pending path cycle : List String}
    {below : List Frame} {colours : NameMap Colour}
    (coherent : Coherent next names root ⟨⟨node, name :: pending⟩ :: below, path, colours⟩)
    (closes : closing? path node name = some cycle) : ClosedFrom (Link next names) root cycle := by
  have isCycle := closingIsCycle coherent closes
  obtain ⟨start, rfl⟩ := closingDrops closes
  refine ⟨isCycle, fun head atHead => ?_, fun mem => ?_⟩
  · exact coherent.reaches (List.mem_of_mem_drop (List.mem_of_mem_head? atHead))
  · -- The root stands on the path once, and there it is the first.
    have first := coherent.rooted.resolve_left (by simp)
    obtain ⟨rest, rfl⟩ := List.head?_eq_some_iff.mp first
    cases start with
    | zero => rfl
    | succ start =>
      rw [List.drop_succ_cons] at mem
      exact absurd (List.mem_of_mem_drop mem) (List.nodup_cons.mp coherent.distinct).1

theorem walkClosedFrom (closed : ∀ a, ∀ b ∈ next a, b ∈ names) (known : root ∈ names)
    {cycles : List (List String)} {t : Search} (walk : Walk next (start next root) cycles t) :
    ∀ cycle ∈ cycles, ClosedFrom (Link next names) root cycle := by
  let P (s : Search) (seen : List (List String)) : Prop :=
    Coherent next names root s ∧ ∀ cycle ∈ seen, ClosedFrom (Link next names) root cycle
  have before : P (start next root) [] := ⟨startCoherent known, by simp⟩
  have moves : ∀ {s t found seen}, P s seen → Move next s found t → P t (seen ++ found.toList) := by
    rintro s t found seen ⟨coherent, sound⟩ move
    refine ⟨moveCoherent closed coherent move, fun cycle mem => ?_⟩
    rcases List.mem_append.mp mem with mem | mem
    · exact sound cycle mem
    · cases move with
      | leave | enter | skip => simp at mem
      | close _ => exact closingClosedFrom coherent (by simpa using mem)
  simpa using (walk.keeps moves before).2

end Searching

variable {symbols : SymbolTable} {g : DependencyGraph}

def searchFrom (withoutRepeats : Bool) (symbols : SymbolTable) (g : DependencyGraph) (f : Findings)
    (root : String) : Findings :=
  run (successors symbols g) withoutRepeats (effort (successors symbols g) symbols.names)
    (start (successors symbols g) root) f

theorem searchAdds (withoutRepeats : Bool) (f : Findings) {root : String}
    (known : root ∈ symbols.names) :
    ∃ found, Adds f found (searchFrom withoutRepeats symbols g f root) ∧
      (∀ cycle ∈ found, ClosedFrom (Uses symbols g) root cycle) ∧
      (withoutRepeats = false → Entangled (Uses symbols g) root →
        root ∈ (searchFrom withoutRepeats symbols g f root).heads) := by
  have closed := successorsKnown symbols g
  obtain ⟨cycles, t, walk, ended, same⟩ := runWalks closed (startWithin closed root) (startWork known)
  obtain ⟨found, among, adds⟩ := foldAdds withoutRepeats cycles f
  simp only [searchFrom, same, ← linkSuccessors]
  refine ⟨found, adds, fun cycle mem => ?_, fun plain entangled => ?_⟩
  · exact walkClosedFrom closed known walk cycle (among.subset mem)
  · subst plain
    have before : HeadsKnown f [] := by simp [HeadsKnown]
    obtain ⟨cycle, mem, head⟩ := walkComplete closed walk ended known entangled
    exact foldKeeps false recordHeadsKnown cycles before cycle mem root head

def FoundFrom (withoutRepeats : Bool) (symbols : SymbolTable) (g : DependencyGraph) (root : String)
    (cycle : List String) : Prop :=
  ClosedFrom (Uses symbols g) root cycle ∧
    (withoutRepeats = false → ∀ head ∈ cycle.head?, ¬ head < root)

theorem earlierOfLess {earlier roots : List String} {root name : String}
    (split : symbols.names = earlier ++ root :: roots) (known : name ∈ symbols.names)
    (less : name < root) : name ∈ earlier := by
  have order : symbols.names.Pairwise (· < ·) := symbols.types.keysIncreasing
  rw [split] at known order
  have later := (List.pairwise_cons.mp (List.pairwise_append.mp order).2.1).1
  rcases List.mem_append.mp known with before | after
  · exact before
  · rcases List.mem_cons.mp after with rfl | after
    · exact absurd less (String.lt_irrefl name)
    · exact absurd less (String.lt_asymm (later name after))

theorem sweepByRoot (withoutRepeats : Bool) {earlier roots : List String} {f : Findings}
    (split : symbols.names = earlier ++ roots)
    (reported : withoutRepeats = false →
      ∀ name ∈ earlier, Entangled (Uses symbols g) name → name ∈ f.heads) :
    ∃ blocks : List (List (List String)),
      (roots.foldl (searchFrom withoutRepeats symbols g) f).cycles = f.cycles ++ blocks.flatten ∧
      List.Forall₂ (fun root found => ∀ cycle ∈ found,
        FoundFrom withoutRepeats symbols g root cycle) roots blocks := by
  induction roots generalizing earlier f with
  | nil => exact ⟨[], by simp, .nil⟩
  | cons root roots ih =>
    have known : root ∈ symbols.names := by simp [split]
    obtain ⟨found, adds, closed, own⟩ := @searchAdds symbols g withoutRepeats f root known
    have settled : withoutRepeats = false → ∀ name ∈ earlier ++ [root],
        Entangled (Uses symbols g) name →
          name ∈ (searchFrom withoutRepeats symbols g f root).heads := by
      intro plain name mem entangled
      rcases List.mem_append.mp mem with mem | mem
      · exact adds.heads name (reported plain name mem entangled)
      · cases List.mem_singleton.mp mem
        exact own plain entangled
    obtain ⟨blocks, same, each⟩ := ih (by simp [split]) settled
    refine ⟨found :: blocks, ?_, .cons (fun cycle mem => ⟨closed cycle mem, ?_⟩) each⟩
    · rw [List.foldl_cons, same, adds.cycles, List.flatten_cons, List.append_assoc]
    · intro plain head atHead less
      -- A smaller type on a cycle has been searched from, and so it has its report.
      have entangled : Entangled (Uses symbols g) head :=
        OnCycle.entangled ⟨cycle, (closed cycle mem).isCycle, List.mem_of_mem_head? atHead⟩
      have declared := SymbolTable.memNames.mpr (entangledKnown entangled)
      have before := earlierOfLess split declared less
      exact adds.fresh cycle mem head atHead (reported plain head before entangled)

theorem findByRoot (withoutRepeats : Bool) (symbols : SymbolTable) (g : DependencyGraph) :
    ∃ blocks : List (List (List String)), find withoutRepeats symbols g = blocks.flatten ∧
      List.Forall₂ (fun root found => ∀ cycle ∈ found,
        FoundFrom withoutRepeats symbols g root cycle) symbols.names blocks := by
  obtain ⟨blocks, same, each⟩ :=
    @sweepByRoot symbols g withoutRepeats [] symbols.names .empty rfl (by simp)
  exact ⟨blocks, same, each⟩

theorem IsCycle.headed {uses : String → String → Prop} {cycle : List String}
    (isCycle : IsCycle uses cycle) : cycle.head? = some (cycle.headD "") := by
  match cycle, isCycle.long with
  | head :: rest, _ => rfl

theorem headsApart (withoutRepeats : Bool) (symbols : SymbolTable) (g : DependencyGraph) :
    (find withoutRepeats symbols g).Pairwise fun a b => a.headD "" ≠ b.headD "" := by
  obtain ⟨distinct, sound⟩ := headsOfFind withoutRepeats symbols g
  refine distinct.imp_of_mem fun {a b} left right different equal => different ?_
  rw [(sound a left).headed, (sound b right).headed, equal]

theorem pairwiseOfSplits {α : Type} {r : α → α → Prop} {xs : List α}
    (each : ∀ before x after, xs = before ++ x :: after → ∀ y ∈ after, r x y) : xs.Pairwise r := by
  induction xs with
  | nil => exact .nil
  | cons x xs ih =>
    refine .cons (each [] x xs rfl) (ih fun before y after split => ?_)
    exact each (x :: before) y after (by rw [split, List.cons_append])

theorem increasingIff (symbols : SymbolTable) (g : DependencyGraph) :
    (find false symbols g).Pairwise (fun a b => a.headD "" < b.headD "") ↔
      ∀ before cycle after, find false symbols g = before ++ cycle :: after →
        ∀ name, OnCycle (Uses symbols g) name → (∀ earlier ∈ before, earlier.head? ≠ some name) →
          ¬ name < cycle.headD "" := by
  obtain ⟨distinct, sound⟩ := headsOfFind false symbols g
  constructor
  · intro increasing before cycle after split name onCycle unreported less
    obtain ⟨report, mem, head⟩ := plainFindComplete onCycle.entangled
    have own : report.headD "" = name := by
      rw [List.headD_eq_head?_getD, head]
      rfl
    rw [split] at mem increasing
    rcases List.mem_append.mp mem with mem | mem
    · exact unreported report mem head
    · rcases List.mem_cons.mp mem with rfl | mem
      · exact String.ne_of_lt less own.symm
      · have later := (List.pairwise_cons.mp (List.pairwise_append.mp increasing).2.1).1 report mem
        exact String.lt_asymm less (own ▸ later)
  · intro least
    refine pairwiseOfSplits fun before cycle after split later mem => ?_
    have here : cycle ∈ find false symbols g := by simp [split]
    have there : later ∈ find false symbols g := by simp [split, mem]
    have onCycle : OnCycle (Uses symbols g) (later.headD "") :=
      ⟨later, sound later there, List.mem_of_mem_head? (sound later there).headed⟩
    rw [split] at distinct
    obtain ⟨-, rest, across⟩ := List.pairwise_append.mp distinct
    have first := least before cycle after split (later.headD "") onCycle fun earlier inFront same =>
      across earlier inFront later (List.mem_cons_of_mem _ mem)
        (same.trans (sound later there).headed.symm)
    have apart := (List.pairwise_cons.mp rest).1 later mem
    rw [(sound cycle here).headed, (sound later there).headed] at apart
    exact ltOfNotLt first fun same => apart (congrArg some same.symm)

/-- No type can come to a cycle without being on it, unless all types of the cycle are smaller. -/
def NoCycleAhead (uses : String → String → Prop) : Prop :=
  ∀ name cycle, IsCycle uses cycle → (∃ other ∈ cycle, ReflTransGen uses name other) →
    name ∈ cycle ∨ ∀ other ∈ cycle, other < name

theorem NoCycleAhead.ownHead (clear : NoCycleAhead (Uses symbols g)) {root : String}
    {cycle : List String} (found : FoundFrom false symbols g root cycle) :
    cycle.headD "" = root := by
  obtain ⟨⟨isCycle, reached, rooted⟩, bound⟩ := found
  have head := isCycle.headed
  have onCycle := List.mem_of_mem_head? head
  rcases clear root cycle isCycle ⟨_, onCycle, reached _ head⟩ with mem | smaller
  · rw [rooted mem] at head
    exact (Option.some.inj head).symm
  · exact absurd (smaller _ onCycle) (bound rfl _ head)

section Blocks

variable {names : List String} {blocks : List (List (List String))}
  (own : List.Forall₂ (fun root found => ∀ cycle ∈ found, cycle.headD "" = root) names blocks)

include own

theorem headsAmongRoots : ∀ cycle ∈ blocks.flatten, cycle.headD "" ∈ names := by
  induction own with
  | nil => simp
  | cons first _ ih =>
    intro cycle mem
    rw [List.flatten_cons] at mem
    rcases List.mem_append.mp mem with mem | mem
    · exact List.mem_cons.mpr (.inl (first cycle mem))
    · exact List.mem_cons_of_mem _ (ih cycle mem)

theorem blocksIncreasing (order : names.Pairwise (· < ·))
    (distinct : blocks.flatten.Pairwise fun a b => a.headD "" ≠ b.headD "") :
    blocks.flatten.Pairwise fun a b => a.headD "" < b.headD "" := by
  induction own with
  | nil => exact .nil
  | cons first rest ih =>
    obtain ⟨above, order⟩ := List.pairwise_cons.mp order
    rw [List.flatten_cons, List.pairwise_append] at distinct ⊢
    refine ⟨distinct.1.imp_of_mem fun {a b} left right apart => ?_, ih order distinct.2.1, ?_⟩
    · exact absurd ((first a left).trans (first b right).symm) apart
    · intro a left b right
      rw [first a left]
      exact above _ (headsAmongRoots rest b right)

end Blocks

theorem NoCycleAhead.increasing (clear : NoCycleAhead (Uses symbols g)) :
    (find false symbols g).Pairwise fun a b => a.headD "" < b.headD "" := by
  have apart := headsApart false symbols g
  obtain ⟨blocks, same, each⟩ := findByRoot false symbols g
  rw [same] at apart ⊢
  refine blocksIncreasing ?_ symbols.types.keysIncreasing apart
  exact each.imp fun root found closed cycle mem => clear.ownHead (closed cycle mem)

end JavaAudit.Cycles
