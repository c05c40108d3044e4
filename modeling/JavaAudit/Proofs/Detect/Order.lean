import JavaAudit.Proofs.Cycles.Order
import JavaAudit.Proofs.Detect.Unused

/-! The order of the issues of a project: check by check, and within three of the four checks in
increasing order of the type or package concerned. Cycles come in the order of the types that the
searches for them begin with, which need not be the order of the types that the cycles begin with. -/
namespace JavaAudit.Detect
open Cycles Relation

theorem projectBlocks (c : DetectorConfig) (symbols : SymbolTable) (g : DependencyGraph) :
    projectIssues c symbols g =
      unused c.entryPointSuffixes symbols g ++ cycles c.dedupeCycles symbols g ++
        godPackages c.godPackageThreshold symbols ++ deepPackages c.deepPackageThreshold symbols := by
  simp [projectIssues, Detector.all, Detector.run]

theorem unusedTypesInOrder (suffixes : List String) (symbols : SymbolTable) (g : DependencyGraph) :
    (unusedTypes suffixes symbols g).Pairwise (fun a b => a.1 < b.1) ∧
      ∀ entry ∈ unusedTypes suffixes symbols g, symbols.get? entry.1 = some entry.2 := by
  refine ⟨symbols.types.increasing.filter _, fun entry mem => ?_⟩
  exact NameMap.memOfGet.mpr (List.mem_of_mem_filter mem)

theorem godPackagesInOrder (threshold : Nat) (symbols : SymbolTable) :
    (godPackages threshold symbols).Pairwise (fun a b => a.location < b.location) ∧
      ∀ issue ∈ godPackages threshold symbols, issue.code = .godPackage := by
  refine ⟨List.pairwise_map.mpr (symbols.byPackage.increasing.filter _), fun issue mem => ?_⟩
  obtain ⟨entry, -, rfl⟩ := List.mem_map.mp mem
  rfl

theorem deepPackagesInOrder (threshold : Nat) (symbols : SymbolTable) :
    (deepPackages threshold symbols).Pairwise (fun a b => a.location < b.location) ∧
      ∀ issue ∈ deepPackages threshold symbols, issue.code = .deepPackage := by
  refine ⟨List.pairwise_map.mpr (symbols.byPackage.keysIncreasing.filter _), fun issue mem => ?_⟩
  obtain ⟨entry, -, rfl⟩ := List.mem_map.mp mem
  rfl

theorem cyclesByRoot (withoutRepeats : Bool) (symbols : SymbolTable) (g : DependencyGraph) :
    ∃ blocks : List (List (List String)), find withoutRepeats symbols g = blocks.flatten ∧
      List.Forall₂ (fun root found => ∀ cycle ∈ found,
        ReflTransGen (Uses symbols g) root (cycle.headD "") ∧
          (withoutRepeats = false → ¬ cycle.headD "" < root)) symbols.names blocks := by
  obtain ⟨blocks, same, each⟩ := findByRoot withoutRepeats symbols g
  refine ⟨blocks, same, each.imp fun root found closed cycle mem => ?_⟩
  obtain ⟨⟨isCycle, reached, -⟩, bound⟩ := closed cycle mem
  exact ⟨reached _ isCycle.headed, fun plain => bound plain _ isCycle.headed⟩

theorem issuesInOrder (c : DetectorConfig) (symbols : SymbolTable) (g : DependencyGraph) :
    let types := unusedTypes c.entryPointSuffixes symbols g
    let found := find c.dedupeCycles symbols g
    let large := godPackages c.godPackageThreshold symbols
    let deep := deepPackages c.deepPackageThreshold symbols
    projectIssues c symbols g =
      types.map (fun entry => unusedIssue entry.2) ++ found.map cycleIssue ++ large ++ deep ∧
    (types.Pairwise (fun a b => a.1 < b.1) ∧
      ∀ entry ∈ types, symbols.get? entry.1 = some entry.2) ∧
    (large.Pairwise (fun a b => a.location < b.location) ∧
      ∀ issue ∈ large, issue.code = .godPackage) ∧
    (deep.Pairwise (fun a b => a.location < b.location) ∧
      ∀ issue ∈ deep, issue.code = .deepPackage) ∧
    found.Pairwise (fun a b => a.headD "" ≠ b.headD "") ∧
    symbols.names.Pairwise (· < ·) ∧
    (∃ blocks : List (List (List String)), found = blocks.flatten ∧
      List.Forall₂ (fun root block => ∀ cycle ∈ block,
        ReflTransGen (Uses symbols g) root (cycle.headD "") ∧
          (c.dedupeCycles = false → ¬ cycle.headD "" < root)) symbols.names blocks) ∧
    (c.dedupeCycles = false →
      (found.Pairwise (fun a b => a.headD "" < b.headD "") ↔
        ∀ before cycle after, found = before ++ cycle :: after →
          ∀ name, OnCycle (Uses symbols g) name → (∀ earlier ∈ before, earlier.head? ≠ some name) →
            ¬ name < cycle.headD "") ∧
      (NoCycleAhead (Uses symbols g) →
        found.Pairwise (fun a b => a.headD "" < b.headD ""))) := by
  refine ⟨projectBlocks c symbols g, unusedTypesInOrder _ symbols g, godPackagesInOrder _ symbols,
    deepPackagesInOrder _ symbols, headsApart _ symbols g, symbols.types.keysIncreasing,
    cyclesByRoot _ symbols g, fun plain => ?_⟩
  rw [plain]
  exact ⟨increasingIff symbols g, NoCycleAhead.increasing⟩

theorem issuesInOrderPair :
    let symbols := SymbolTable.empty.insertAll
      (["p.A", "p.B", "p.C"].map fun name => { (default : TypeInfo) with fullName := name })
    let g := DependencyGraph.empty.addEdges [⟨"p.A", "p.B"⟩, ⟨"p.B", "p.A"⟩, ⟨"p.C", "p.A"⟩]
    NoCycleAhead (Uses symbols g) ∧ (find false symbols g).length = 2 ∧
    (find false symbols g).Pairwise (fun a b => a.headD "" < b.headD "") := by
  intro symbols g
  have among : ∀ {cycle}, IsCycle (Uses symbols g) cycle → cycle.Perm ["p.A", "p.B"] := by
    intro cycle isCycle
    have subset : cycle ⊆ ["p.A", "p.B"] := by
      intro name mem
      -- Every type on a cycle begins a report, and these are known.
      obtain ⟨report, reported, head⟩ :=
        plainFindComplete (OnCycle.entangled ⟨cycle, isCycle, mem⟩)
      have heads : ∀ report ∈ find false symbols g, ∀ name ∈ report.head?, name ∈ ["p.A", "p.B"] := by
        decide
      exact heads report reported name head
    exact (List.subperm_of_subset isCycle.distinct subset).perm_of_length_le isCycle.long
  have clear : NoCycleAhead (Uses symbols g) := by
    rintro name cycle isCycle ⟨other, mem, reach⟩
    have members : ∀ {a}, a ∈ cycle ↔ a ∈ ["p.A", "p.B"] := (among isCycle).mem_iff
    have known : name ∈ ["p.A", "p.B"] ++ ["p.C"] := by
      rcases ReflTransGen.cases_head reach with rfl | ⟨_, use, _⟩
      · exact List.mem_append_left _ (members.mp mem)
      · exact SymbolTable.memNames.mpr use.1
    rcases List.mem_append.mp known with near | last
    · exact .inl (members.mpr near)
    · cases List.mem_singleton.mp last
      have smaller : ∀ a ∈ ["p.A", "p.B"], a < "p.C" := by decide
      exact .inr fun a mem => smaller a (members.mp mem)
  exact ⟨clear, by decide, ((issuesInOrder {} symbols g).2.2.2.2.2.2.2 rfl).2 clear⟩

/-- The search from the first type closes a cycle at the last type before the one at the second. -/
theorem cycleHeadsOutOfOrder :
    let symbols := SymbolTable.empty.insertAll
      (["p.A", "p.B", "p.C"].map fun name => { (default : TypeInfo) with fullName := name })
    let g := DependencyGraph.empty.addEdges [⟨"p.A", "p.C"⟩, ⟨"p.C", "p.B"⟩, ⟨"p.B", "p.C"⟩]
    (cycles false symbols g).map ProjectIssue.location = ["p.C", "p.B"] ∧
    ¬ (cycles false symbols g).Pairwise (fun a b => a.location < b.location) := by
  decide

end JavaAudit.Detect
