import JavaAudit.Proofs.Cycles.Closing
import JavaAudit.Proofs.Graph.Edges

/-! What is reported of the closed cycles. Every report is a cycle of declared types, and no two
begin with the same type. When nothing is left out, the reported heads are exactly the types on a
cycle of at least two types. -/
namespace JavaAudit.Cycles
open Relation (ReflTransGen TransGen)

theorem recordHeadless {withoutRepeats : Bool} {f : Findings} {cycle : List String}
    (none : cycle.head? = none) : f.record withoutRepeats cycle = f := by
  simp [Findings.record, none]

theorem recordCases (withoutRepeats : Bool) (f : Findings) {cycle : List String} {head : String}
    (first : cycle.head? = some head) :
    (head ∈ f.heads ∧ f.record withoutRepeats cycle = f) ∨
    (withoutRepeats = true ∧ canonicalRotation cycle ∈ f.rotations ∧
      f.record withoutRepeats cycle = f) ∨
    (head ∉ f.heads ∧ (withoutRepeats = true → canonicalRotation cycle ∉ f.rotations) ∧
      f.record withoutRepeats cycle = ⟨f.heads.insert head,
        if withoutRepeats then canonicalRotation cycle :: f.rotations else f.rotations,
        f.cycles ++ [cycle]⟩) := by
  by_cases known : head ∈ f.heads
  · exact .inl ⟨known, by simp [Findings.record, first, known]⟩
  · cases withoutRepeats with
    | false =>
      exact .inr (.inr ⟨known, by simp, by simp [Findings.record, first, known, Findings.add]⟩)
    | true =>
      by_cases seen : canonicalRotation cycle ∈ f.rotations
      · exact .inr (.inl ⟨rfl, seen, by simp [Findings.record, first, known, Findings.add, seen]⟩)
      · exact .inr (.inr ⟨known, fun _ => seen,
          by simp [Findings.record, first, known, Findings.add, seen]⟩)

structure Adds (f : Findings) (found : List (List String)) (after : Findings) : Prop where
  cycles : after.cycles = f.cycles ++ found
  heads : ∀ name ∈ f.heads, name ∈ after.heads
  fresh : ∀ cycle ∈ found, ∀ head ∈ cycle.head?, head ∉ f.heads

theorem Adds.nothing (f : Findings) : Adds f [] f :=
  ⟨by simp, fun _ mem => mem, by simp⟩

theorem recordAdds (withoutRepeats : Bool) (f : Findings) (cycle : List String) :
    ∃ found, found.Sublist [cycle] ∧ Adds f found (f.record withoutRepeats cycle) := by
  cases first : cycle.head? with
  | none => exact ⟨[], List.nil_sublist _, by rw [recordHeadless first]; exact .nothing f⟩
  | some head =>
    rcases recordCases withoutRepeats f first with ⟨_, same⟩ | ⟨_, _, same⟩ | ⟨fresh, _, added⟩
    · exact ⟨[], List.nil_sublist _, by rw [same]; exact .nothing f⟩
    · exact ⟨[], List.nil_sublist _, by rw [same]; exact .nothing f⟩
    · refine ⟨[cycle], List.Sublist.refl _, ?_⟩
      rw [added]
      refine ⟨rfl, fun name mem => NameSet.memInsert.mpr (.inr mem), ?_⟩
      intro other mem name atHead
      rw [List.mem_singleton.mp mem, first] at atHead
      exact Option.mem_some_iff.mp atHead ▸ fresh

theorem foldKeeps (withoutRepeats : Bool) {P : Findings → List (List String) → Prop}
    (recordKeeps : ∀ {f seen} cycle, P f seen →
      P (f.record withoutRepeats cycle) (seen ++ [cycle]))
    (cycles : List (List String)) {f : Findings} {seen : List (List String)} (before : P f seen) :
    P (cycles.foldl (Findings.record withoutRepeats) f) (seen ++ cycles) := by
  induction cycles generalizing f seen with
  | nil => simpa using before
  | cons cycle cycles ih =>
    have after := ih (recordKeeps cycle before)
    rwa [List.append_assoc] at after

structure Consistent (f : Findings) (seen : List (List String)) : Prop where
  heads : ∀ name, name ∈ f.heads ↔ ∃ cycle ∈ f.cycles, cycle.head? = some name
  distinct : f.cycles.Pairwise fun a b => a.head? ≠ b.head?
  origin : ∀ cycle ∈ f.cycles, cycle ∈ seen

theorem emptyConsistent : Consistent .empty [] := by
  constructor <;> simp [Findings.empty]

theorem recordConsistent {withoutRepeats : Bool} {f : Findings} {seen : List (List String)}
    (cycle : List String) (consistent : Consistent f seen) :
    Consistent (f.record withoutRepeats cycle) (seen ++ [cycle]) := by
  have older : Consistent f (seen ++ [cycle]) := ⟨consistent.heads, consistent.distinct,
    fun other mem => List.mem_append_left _ (consistent.origin other mem)⟩
  cases first : cycle.head? with
  | none => rwa [recordHeadless first]
  | some head =>
    rcases recordCases withoutRepeats f first with ⟨_, same⟩ | ⟨_, _, same⟩ | ⟨fresh, _, added⟩
    · rwa [same]
    · rwa [same]
    · rw [added]
      refine ⟨fun name => ?_, ?_, fun other mem => ?_⟩
      · simp only [NameSet.memInsert, consistent.heads name, List.mem_append, List.mem_singleton,
          or_and_right, exists_or, exists_eq_left, first, Option.some.injEq]
        rw [or_comm, eq_comm]
      · refine List.pairwise_append.mpr ⟨consistent.distinct, List.pairwise_singleton _ _, ?_⟩
        intro other mem last single same
        rw [List.mem_singleton.mp single, first] at same
        exact fresh ((consistent.heads head).mpr ⟨other, mem, same⟩)
      · rcases List.mem_append.mp mem with mem | mem
        · exact older.origin other mem
        · exact List.mem_append_right _ mem

theorem foldConsistent (withoutRepeats : Bool) (cycles : List (List String)) :
    Consistent (cycles.foldl (Findings.record withoutRepeats) .empty) cycles := by
  simpa using foldKeeps withoutRepeats recordConsistent cycles emptyConsistent

def HeadsKnown (f : Findings) (seen : List (List String)) : Prop :=
  ∀ cycle ∈ seen, ∀ name ∈ cycle.head?, name ∈ f.heads

theorem recordHeadsKnown {f : Findings} {seen : List (List String)} (cycle : List String)
    (known : HeadsKnown f seen) : HeadsKnown (f.record false cycle) (seen ++ [cycle]) := by
  obtain ⟨_, -, -, kept, -⟩ := recordAdds false f cycle
  intro other mem name first
  rcases List.mem_append.mp mem with mem | mem
  · exact kept name (known other mem name first)
  · cases List.mem_singleton.mp mem
    rcases recordCases false f first with ⟨mem, same⟩ | ⟨impossible, _⟩ | ⟨_, _, added⟩
    · rwa [same]
    · contradiction
    · rw [added]
      exact NameSet.memInsert.mpr (.inl rfl)

theorem foldHeadsKnown (cycles : List (List String)) :
    HeadsKnown (cycles.foldl (Findings.record false) .empty) cycles := by
  have before : HeadsKnown .empty [] := by simp [HeadsKnown]
  simpa using foldKeeps false recordHeadsKnown cycles before

theorem IsCycle.reach {uses : String → String → Prop} {cycle : List String}
    (isCycle : IsCycle uses cycle) {a b : String} (left : a ∈ cycle) (right : b ∈ cycle) :
    ReflTransGen uses a b := by
  have ordered : cycle.Pairwise (ReflTransGen uses) :=
    List.isChain_iff_pairwise.mp (isCycle.linked.imp fun _ _ use => .single use)
  have toLast : ∀ last ∈ cycle.getLast?, ReflTransGen uses a last := by
    intro last atLast
    obtain ⟨front, rfl⟩ := List.getLast?_eq_some_iff.mp atLast
    rcases List.mem_append.mp left with mem | mem
    · exact (List.pairwise_append.mp ordered).2.2 a mem last (List.mem_singleton_self last)
    · rw [List.mem_singleton.mp mem]
  have fromHead : ∀ head ∈ cycle.head?, ReflTransGen uses head b := by
    intro head atHead
    obtain ⟨rest, rfl⟩ := List.head?_eq_some_iff.mp atHead
    rcases List.mem_cons.mp right with rfl | mem
    · exact .refl
    · exact (List.pairwise_cons.mp ordered).1 b mem
  have filled : cycle ≠ [] := List.ne_nil_of_mem left
  have atHead := List.head?_eq_some_head filled
  have atLast := List.getLast?_eq_some_getLast filled
  exact (toLast _ atLast).trans (.head (isCycle.closed _ atHead _ atLast) (fromHead _ atHead))

def OnCycle (uses : String → String → Prop) (name : String) : Prop :=
  ∃ cycle, IsCycle uses cycle ∧ name ∈ cycle

theorem OnCycle.entangled {uses : String → String → Prop} {name : String}
    (onCycle : OnCycle uses name) : Entangled uses name := by
  obtain ⟨cycle, isCycle, mem⟩ := onCycle
  have another : ∃ other ∈ cycle, other ≠ name := by
    have long := isCycle.long
    have distinct := isCycle.distinct
    match cycle with
    | first :: second :: rest =>
      by_cases same : first = name
      · refine ⟨second, by simp, fun equal => ?_⟩
        simp [same, equal] at distinct
      · exact ⟨first, by simp, same⟩
  obtain ⟨other, present, different⟩ := another
  exact ⟨other, different, isCycle.reach mem present, isCycle.reach present mem⟩

theorem entangledIff {uses : String → String → Prop} {name : String} :
    Entangled uses name ↔ TransGen (fun a b => a ≠ b ∧ uses a b) name name := by
  constructor
  · rintro ⟨other, different, out, back⟩
    have proper : ∀ {a b}, ReflTransGen uses a b →
        ReflTransGen (fun a b => a ≠ b ∧ uses a b) a b := by
      intro a b reach
      induction reach with
      | refl => exact .refl
      | @tail b c _ use ih =>
        by_cases same : b = c
        · exact same ▸ ih
        · exact ih.tail ⟨same, use⟩
    rcases Relation.reflTransGen_iff_eq_or_transGen.mp (proper out) with same | first
    · exact absurd same different
    · exact first.trans_left (proper back)
  · intro loop
    obtain ⟨other, ⟨different, use⟩, back⟩ := TransGen.head'_iff.mp loop
    exact ⟨other, different.symm, .single use, ReflTransGen.mono (fun _ _ step => step.2) _ _ back⟩

theorem headsOfFind (withoutRepeats : Bool) (symbols : SymbolTable) (g : DependencyGraph) :
    (find withoutRepeats symbols g).Pairwise (fun a b => a.head? ≠ b.head?) ∧
      ∀ cycle ∈ find withoutRepeats symbols g, IsCycle (Uses symbols g) cycle := by
  obtain ⟨cycles, sound, -, same⟩ := findRecords symbols g
  have consistent := foldConsistent withoutRepeats cycles
  rw [same]
  exact ⟨consistent.distinct, fun cycle mem => sound cycle (consistent.origin cycle mem)⟩

theorem plainFindComplete {symbols : SymbolTable} {g : DependencyGraph} {name : String}
    (entangled : Entangled (Uses symbols g) name) :
    ∃ cycle ∈ find false symbols g, cycle.head? = some name := by
  obtain ⟨cycles, -, complete, same⟩ := findRecords symbols g
  obtain ⟨cycle, mem, head⟩ := complete name entangled
  rw [same, ← (foldConsistent false cycles).heads]
  exact foldHeadsKnown cycles cycle mem name head

theorem onCycleIff {symbols : SymbolTable} {g : DependencyGraph} {name : String} :
    OnCycle (Uses symbols g) name ↔ Entangled (Uses symbols g) name := by
  refine ⟨OnCycle.entangled, fun entangled => ?_⟩
  obtain ⟨cycle, mem, head⟩ := plainFindComplete entangled
  exact ⟨cycle, (headsOfFind false symbols g).2 cycle mem, List.mem_of_mem_head? head⟩

theorem oneWithHead {cycles : List (List String)}
    (distinct : cycles.Pairwise fun a b => a.head? ≠ b.head?) {cycle : List String}
    (mem : cycle ∈ cycles) : cycles.filter (fun other => other.head? = cycle.head?) = [cycle] := by
  obtain ⟨front, back, rfl⟩ := List.append_of_mem mem
  obtain ⟨-, later, apart⟩ := List.pairwise_append.mp distinct
  have inFront : front.filter (fun other => other.head? = cycle.head?) = [] := by
    refine List.filter_eq_nil_iff.mpr fun other mem => ?_
    simpa using apart other mem cycle List.mem_cons_self
  have inBack : back.filter (fun other => other.head? = cycle.head?) = [] := by
    refine List.filter_eq_nil_iff.mpr fun other mem => ?_
    simpa using ((List.pairwise_cons.mp later).1 other mem).symm
  simp [inFront, inBack]

theorem plainHeadsExact (symbols : SymbolTable) (g : DependencyGraph) :
    (∀ name, OnCycle (Uses symbols g) name →
      ((find false symbols g).filter fun cycle => cycle.head? = some name).length = 1) ∧
    (∀ cycle ∈ find false symbols g,
      ∃ name, cycle.head? = some name ∧ OnCycle (Uses symbols g) name) ∧
    (∀ name, OnCycle (Uses symbols g) name ↔ ∃ other, other ≠ name ∧
      ReflTransGen (Uses symbols g) name other ∧ ReflTransGen (Uses symbols g) other name) ∧
    (find false symbols g = [] ↔
      ∀ name, ¬ TransGen (fun a b => a ≠ b ∧ Uses symbols g a b) name name) := by
  obtain ⟨distinct, sound⟩ := headsOfFind false symbols g
  have headed : ∀ cycle ∈ find false symbols g,
      ∃ name, cycle.head? = some name ∧ OnCycle (Uses symbols g) name := by
    intro cycle mem
    match shape : cycle, (sound cycle mem).long with
    | name :: rest, _ => exact ⟨name, rfl, cycle, shape ▸ sound _ mem, by simp [shape]⟩
  refine ⟨fun name onCycle => ?_, headed, fun name => onCycleIff, ?_⟩
  · obtain ⟨cycle, mem, head⟩ := plainFindComplete onCycle.entangled
    rw [← head, oneWithHead distinct mem]
    rfl
  · constructor
    · intro empty name loop
      obtain ⟨cycle, mem, _⟩ := plainFindComplete (entangledIff.mpr loop)
      simp [empty] at mem
    · intro acyclic
      refine List.eq_nil_iff_forall_not_mem.mpr fun cycle mem => ?_
      obtain ⟨name, _, onCycle⟩ := headed cycle mem
      exact acyclic name (entangledIff.mp onCycle.entangled)

theorem plainHeadsExactSharedType :
    let symbols := SymbolTable.empty.insertAll
      (["p.A", "p.B", "p.C", "p.D"].map fun name => { (default : TypeInfo) with fullName := name })
    let g := DependencyGraph.empty.addEdges [⟨"p.A", "p.B"⟩, ⟨"p.B", "p.A"⟩, ⟨"p.B", "p.C"⟩,
      ⟨"p.C", "p.B"⟩, ⟨"p.D", "p.D"⟩, ⟨"p.D", "p.A"⟩, ⟨"p.C", "x.Y"⟩, ⟨"x.Y", "p.D"⟩]
    OnCycle (Uses symbols g) "p.C" ∧
    ((find false symbols g).filter fun cycle => cycle.head? = some "p.C").length = 1 ∧
    ¬ OnCycle (Uses symbols g) "p.D" := by
  intro symbols g
  have heads := (plainHeadsExact symbols g).1
  have shared : OnCycle (Uses symbols g) "p.C" := ⟨["p.C", "p.B"], by decide, by decide⟩
  refine ⟨shared, heads "p.C" shared, fun onCycle => ?_⟩
  have none : ((find false symbols g).filter fun cycle => cycle.head? = some "p.D").length = 0 := by
    decide
  exact absurd ((heads "p.D" onCycle).symm.trans none) (by decide)

theorem successorsAgree {symbols : SymbolTable} {g h : DependencyGraph}
    (same : ∀ a b, symbols.contains a = true → symbols.contains b = true →
      h.hasEdge a b = g.hasEdge a b) :
    ∀ a ∈ symbols.names, successors symbols h a = successors symbols g a := by
  intro a known
  have ordered : ∀ k : DependencyGraph, (successors symbols k a).Pairwise (· < ·) :=
    fun k => (k.targets a).increasing.filter _
  refine eqOfIncreasing id (ordered h) (ordered g) fun b => ?_
  rw [memSuccessors, memSuccessors]
  refine and_congr_left fun target => ?_
  rw [same a b (SymbolTable.memNames.mp known) target]

theorem findAgrees {symbols : SymbolTable} {g h : DependencyGraph} (withoutRepeats : Bool)
    (same : ∀ a b, symbols.contains a = true → symbols.contains b = true →
      h.hasEdge a b = g.hasEdge a b) :
    find withoutRepeats symbols h = find withoutRepeats symbols g := by
  have agree := successorsAgree same
  have closed := successorsKnown symbols g
  have steps : effort (successors symbols h) symbols.names =
      effort (successors symbols g) symbols.names := by
    unfold effort
    rw [List.map_congr_left fun name known => by rw [agree name known]]
  have begins : ∀ root ∈ symbols.names,
      start (successors symbols h) root = start (successors symbols g) root := by
    intro root known
    simp only [start, agree root known]
  refine congrArg Findings.cycles (List.foldl_ext _ _ _ fun f root known => ?_)
  rw [steps, begins root known]
  exact runAgrees closed agree withoutRepeats _ (startWithin closed root) f

theorem reportsSound (withoutRepeats : Bool) (symbols : SymbolTable) (g : DependencyGraph) :
    (∀ cycle ∈ find withoutRepeats symbols g,
      2 ≤ cycle.length ∧ cycle.Nodup ∧ (∀ name ∈ cycle, symbols.contains name = true) ∧
      (∀ i a b, cycle[i]? = some a → cycle[i + 1]? = some b → g.hasEdge a b = true) ∧
      (∀ first last, cycle.head? = some first → cycle.getLast? = some last →
        g.hasEdge last first = true)) ∧
    (find withoutRepeats symbols g).Pairwise (fun a b => a.head? ≠ b.head?) ∧
    (∀ source target, ¬ (symbols.contains source = true ∧ symbols.contains target = true) →
      find withoutRepeats symbols (g.addEdge source target) = find withoutRepeats symbols g) ∧
    (∀ other : DependencyGraph,
      (∀ a b, symbols.contains a = true → symbols.contains b = true →
        other.hasEdge a b = g.hasEdge a b) →
      find withoutRepeats symbols other = find withoutRepeats symbols g) := by
  obtain ⟨distinct, sound⟩ := headsOfFind withoutRepeats symbols g
  refine ⟨fun cycle mem => ?_, distinct, fun source target outside => ?_,
    fun other same => findAgrees withoutRepeats same⟩
  · have isCycle := sound cycle mem
    refine ⟨isCycle.long, isCycle.distinct, fun name present => ?_, fun i a b here there => ?_,
      fun first last atHead atLast => (isCycle.closed first atHead last atLast).2.2⟩
    · exact entangledKnown (OnCycle.entangled ⟨cycle, isCycle, present⟩)
    · obtain ⟨bound, rfl⟩ := List.getElem?_eq_some_iff.mp there
      obtain ⟨_, rfl⟩ := List.getElem?_eq_some_iff.mp here
      exact (List.isChain_iff_getElem.mp isCycle.linked i bound).2.2
  · refine findAgrees withoutRepeats fun a b left right => ?_
    rw [Bool.eq_iff_iff, hasEdgeIff, hasEdgeIff, memTargetsAddEdge]
    refine or_iff_left ?_
    rintro ⟨rfl, rfl⟩
    exact outside ⟨left, right⟩

theorem reportsSoundOutsideUse :
    let symbols := SymbolTable.empty.insertAll
      (["p.A", "p.B", "p.C"].map fun name => { (default : TypeInfo) with fullName := name })
    let g := DependencyGraph.empty.addEdges
      [⟨"p.A", "p.B"⟩, ⟨"p.B", "p.C"⟩, ⟨"p.C", "p.B"⟩, ⟨"p.B", "x.Y"⟩]
    ["p.B", "p.C"] ∈ find true symbols g ∧ g.hasEdge "p.C" "p.B" = true ∧
    symbols.contains "x.Y" = false ∧
    find true symbols (g.addEdge "x.Y" "p.A") = find true symbols g := by
  intro symbols g
  obtain ⟨sound, _, outside, _⟩ := reportsSound true symbols g
  have reported : ["p.B", "p.C"] ∈ find true symbols g := by decide
  have unknown : symbols.contains "x.Y" = false := by decide
  refine ⟨reported, (sound _ reported).2.2.2.2 _ _ rfl rfl, unknown, outside _ _ ?_⟩
  simp [unknown]

end JavaAudit.Cycles
