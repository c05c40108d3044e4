import JavaAudit.Proofs.Cycles.Rotation
import Mathlib.Data.List.Dedup
import Mathlib.Data.List.Permutation

/-! What reporting without repeats adds. A head whose first cycle is dropped as a repeat stays open,
so a later cycle at this head may be reported that the plain way passes by. Nothing else is added:
the other cycles reported without repeats are plain ones. -/
namespace JavaAudit.Cycles

theorem recordGrows (withoutRepeats : Bool) (f : Findings) (cycle : List String) :
    f.cycles.Sublist (f.record withoutRepeats cycle).cycles := by
  obtain ⟨found, -, adds⟩ := recordAdds withoutRepeats f cycle
  rw [adds.cycles]
  exact List.sublist_append_left _ _

/-- A cycle is a plain one, or the plain cycle with its head repeats a cycle reported before it. -/
def Traced (merged plain : List (List String)) (kept : List String) : Prop :=
  kept ∈ plain ∨ ∃ cycle ∈ plain, cycle.head? = kept.head? ∧
    ∃ earlier, [earlier, kept].Sublist merged ∧ canonicalRotation cycle = canonicalRotation earlier

theorem Traced.later {merged plain moreMerged morePlain : List (List String)} {kept : List String}
    (traced : Traced merged plain kept) (grows : merged.Sublist moreMerged)
    (among : plain.Sublist morePlain) : Traced moreMerged morePlain kept := by
  rcases traced with mem | ⟨cycle, mem, head, earlier, before, same⟩
  · exact .inl (among.subset mem)
  · exact .inr ⟨cycle, among.subset mem, head, earlier, before.trans grows, same⟩

structure Paired (merged plain : Findings) (seen : List (List String)) : Prop where
  keyed : Keyed merged
  consistent : Consistent plain seen
  simulates : Simulates merged plain
  traced : ∀ kept ∈ merged.cycles, Traced merged.cycles plain.cycles kept

theorem emptyPaired : Paired .empty .empty [] where
  keyed := emptyKeyed
  consistent := emptyConsistent
  simulates := by constructor <;> simp [Findings.empty]
  traced := by simp [Findings.empty]

theorem Paired.passedBy {merged plain : Findings} {seen : List (List String)}
    (paired : Paired merged plain seen) {cycle : List String} {head : String}
    (first : cycle.head? = some head) (known : head ∈ plain.heads) :
    Traced (merged.cycles ++ [cycle]) plain.cycles cycle := by
  -- What the plain way has at this head is among the merged cycles up to rotation.
  obtain ⟨found, mem, same⟩ := (paired.consistent.heads head).mp known
  have key := paired.simulates.cycles found mem
  obtain ⟨earlier, present, equal⟩ := (paired.keyed.rotations _).mp key
  refine .inr ⟨found, mem, same.trans first.symm, earlier, ?_, equal.symm⟩
  exact (List.singleton_sublist.mpr present).append (List.Sublist.refl [cycle])

theorem recordPaired {merged plain : Findings} {seen : List (List String)} (cycle : List String)
    (paired : Paired merged plain seen) :
    Paired (merged.record true cycle) (plain.record false cycle) (seen ++ [cycle]) := by
  refine ⟨recordKeyed cycle paired.keyed, recordConsistent cycle paired.consistent,
    recordSimulates cycle paired.simulates, ?_⟩
  have grows := recordGrows true merged cycle
  have among := recordGrows false plain cycle
  have older : ∀ kept ∈ merged.cycles,
      Traced (merged.record true cycle).cycles (plain.record false cycle).cycles kept :=
    fun kept mem => (paired.traced kept mem).later grows among
  cases first : cycle.head? with
  | none => rwa [recordHeadless first] at older ⊢
  | some head =>
    rcases recordCases true merged first with ⟨_, same⟩ | ⟨_, _, same⟩ | ⟨_, _, added⟩
    · rwa [same] at older ⊢
    · rwa [same] at older ⊢
    · -- Only the cycle that is added now still needs a reason.
      intro kept mem
      rw [added] at mem
      rcases List.mem_append.mp mem with mem | mem
      · exact older kept mem
      · cases List.mem_singleton.mp mem
        rcases recordCases false plain first with ⟨known, same⟩ | ⟨impossible, _⟩ | ⟨_, _, longer⟩
        · rw [added, same]
          exact paired.passedBy first known
        · contradiction
        · rw [longer]
          exact .inl (List.mem_append_right _ (List.mem_singleton_self cycle))

theorem foldPaired (cycles : List (List String)) {merged plain : Findings}
    {seen : List (List String)} (paired : Paired merged plain seen) :
    Paired (cycles.foldl (Findings.record true) merged)
      (cycles.foldl (Findings.record false) plain) (seen ++ cycles) := by
  induction cycles generalizing merged plain seen with
  | nil => simpa using paired
  | cons cycle cycles ih =>
    have after := ih (recordPaired cycle paired)
    rwa [List.append_assoc] at after

theorem mergedTraced {symbols : SymbolTable} {g : DependencyGraph} {kept : List String}
    (mem : kept ∈ find true symbols g) :
    kept ∈ find false symbols g ∨ ∃ cycle ∈ find false symbols g, cycle.head? = kept.head? ∧
      ∃ earlier, [earlier, kept].Sublist (find true symbols g) ∧ cycle.IsRotated earlier := by
  have sound := (headsOfFind false symbols g).2
  obtain ⟨cycles, -, -, same⟩ := findRecords symbols g
  have traced := (foldPaired cycles emptyPaired).traced
  rw [← same true, ← same false] at traced
  rcases traced kept mem with plain | ⟨cycle, present, head, earlier, before, equal⟩
  · exact .inl plain
  · have rotated := (canonicalEqIff (sound cycle present).distinct).mp equal
    exact .inr ⟨cycle, present, head, earlier, before, rotated⟩

theorem mergedKeysDistinct (symbols : SymbolTable) (g : DependencyGraph) :
    ((find true symbols g).map canonicalRotation).Nodup := by
  obtain ⟨cycles, -, -, same⟩ := findRecords symbols g
  have apart := (foldKeyed cycles).apart
  rw [← same] at apart
  exact List.pairwise_map.mpr apart

theorem plainKeysMerged (symbols : SymbolTable) (g : DependencyGraph) :
    ((find false symbols g).map canonicalRotation).dedup.Subperm
      ((find true symbols g).map canonicalRotation) := by
  refine List.subperm_of_subset (List.nodup_dedup _) fun key mem => ?_
  obtain ⟨cycle, present, rfl⟩ := List.mem_map.mp (List.mem_dedup.mp mem)
  obtain ⟨kept, found, rotated⟩ := plainHasRotation present
  have distinct := ((headsOfFind false symbols g).2 cycle present).distinct
  exact List.mem_map.mpr ⟨kept, found, ((canonicalEqIff distinct).mpr rotated).symm⟩

theorem keyAmongPlainIff {symbols : SymbolTable} {g : DependencyGraph} {kept : List String}
    (mem : kept ∈ find true symbols g) :
    canonicalRotation kept ∈ ((find false symbols g).map canonicalRotation).dedup ↔
      ∃ cycle ∈ find false symbols g, kept.IsRotated cycle := by
  have distinct := ((headsOfFind true symbols g).2 kept mem).distinct
  simp only [List.mem_dedup, List.mem_map, ← canonicalEqIff distinct, eq_comm]

def OneCycleEach (uses : String → String → Prop) : Prop :=
  ∀ a b name, IsCycle uses a → IsCycle uses b → name ∈ a → name ∈ b → a.IsRotated b

theorem OneCycleEach.mergedPlain {symbols : SymbolTable} {g : DependencyGraph} {kept : List String}
    (oneEach : OneCycleEach (Uses symbols g)) (mem : kept ∈ find true symbols g) :
    kept ∈ find false symbols g := by
  rcases mergedTraced mem with plain | ⟨cycle, present, head, -⟩
  · exact plain
  · -- Both begin with the same type, so a rotation of the one is the other.
    have isCycle := (headsOfFind false symbols g).2 cycle present
    have keptCycle := (headsOfFind true symbols g).2 kept mem
    match shape : cycle, isCycle.long with
    | name :: rest, _ =>
      have inKept : name ∈ kept := List.mem_of_mem_head? (head ▸ rfl)
      have rotated := oneEach _ kept name isCycle keptCycle List.mem_cons_self inKept
      exact eqOfRotated rotated isCycle.distinct head ▸ present

theorem mergingOnlyCollapsesIff (symbols : SymbolTable) (g : DependencyGraph) :
    ((∀ kept ∈ find true symbols g, ∃ cycle ∈ find false symbols g, kept.IsRotated cycle) ↔
      (find true symbols g).length =
        ((find false symbols g).map canonicalRotation).dedup.length) ∧
    (∀ kept ∈ find true symbols g, kept ∈ find false symbols g ∨
      ∃ cycle ∈ find false symbols g, cycle.head? = kept.head? ∧
        ∃ earlier, [earlier, kept].Sublist (find true symbols g) ∧ cycle.IsRotated earlier) ∧
    (OneCycleEach (Uses symbols g) →
      ∀ kept ∈ find true symbols g, kept ∈ find false symbols g) := by
  have keys := plainKeysMerged symbols g
  refine ⟨⟨fun collapses => ?_, fun count kept mem => ?_⟩, fun _ => mergedTraced,
    fun oneEach _ => oneEach.mergedPlain⟩
  · -- Neither list of rotations then has one that the other lacks.
    have back : (find true symbols g).map canonicalRotation ⊆
        ((find false symbols g).map canonicalRotation).dedup := by
      intro key mem
      obtain ⟨kept, found, rfl⟩ := List.mem_map.mp mem
      exact (keyAmongPlainIff found).mpr (collapses kept found)
    have atMost := (List.subperm_of_subset (mergedKeysDistinct symbols g) back).length_le
    have atLeast := keys.length_le
    simp only [List.length_map] at atMost atLeast
    omega
  · have perm := keys.perm_of_length_le (by rw [List.length_map, count])
    exact (keyAmongPlainIff mem).mp (perm.mem_iff.mpr (List.mem_map.mpr ⟨kept, mem, rfl⟩))

theorem mergingOnlyCollapsesOpenHead :
    let declared (names : List String) := SymbolTable.empty.insertAll
      (names.map fun name => { (default : TypeInfo) with fullName := name })
    let symbols := declared ["p.A", "p.B", "p.C"]
    let g := DependencyGraph.empty.addEdges
      [⟨"p.A", "p.B"⟩, ⟨"p.A", "p.C"⟩, ⟨"p.B", "p.A"⟩, ⟨"p.C", "p.A"⟩, ⟨"p.C", "p.B"⟩]
    let pair := DependencyGraph.empty.addEdges [⟨"p.A", "p.B"⟩, ⟨"p.B", "p.A"⟩]
    (["p.B", "p.A", "p.C"] ∈ find true symbols g ∧ ["p.B", "p.A", "p.C"] ∉ find false symbols g ∧
    ∃ cycle ∈ find false symbols g, cycle.head? = some "p.B" ∧
      ∃ earlier, [earlier, ["p.B", "p.A", "p.C"]].Sublist (find true symbols g) ∧
        cycle.IsRotated earlier) ∧
    ["p.A", "p.B"] ∈ find true (declared ["p.A", "p.B"]) pair ∧
    ["p.A", "p.B"] ∈ find false (declared ["p.A", "p.B"]) pair := by
  intro declared symbols g pair
  have reported : ["p.B", "p.A", "p.C"] ∈ find true symbols g := by decide
  have passed : ["p.B", "p.A", "p.C"] ∉ find false symbols g := by decide
  have traced := (mergingOnlyCollapsesIff symbols g).2.1 _ reported
  have merged : ["p.A", "p.B"] ∈ find true (declared ["p.A", "p.B"]) pair := by decide
  -- Two types leave room for one cycle and its rotation.
  have both : ∀ cycle, IsCycle (Uses (declared ["p.A", "p.B"]) pair) cycle →
      cycle = ["p.A", "p.B"] ∨ cycle = ["p.B", "p.A"] := by
    intro cycle isCycle
    have among : cycle ⊆ ["p.A", "p.B"] := fun name mem =>
      SymbolTable.memNames.mpr (entangledKnown (OnCycle.entangled ⟨cycle, isCycle, mem⟩))
    have all := List.subperm_of_subset isCycle.distinct among
    exact List.perm_pair.mp (all.perm_of_length_le isCycle.long)
  refine ⟨⟨reported, passed, traced.resolve_left passed⟩, merged, ?_⟩
  refine (mergingOnlyCollapsesIff (declared ["p.A", "p.B"]) pair).2.2 ?_ _ merged
  intro a b _ left right _ _
  rcases both a left with rfl | rfl <;> rcases both b right with rfl | rfl <;> decide

theorem mergingAddsCycle :
    let symbols := SymbolTable.empty.insertAll
      (["p.A", "p.B", "p.C"].map fun name => { (default : TypeInfo) with fullName := name })
    let g := DependencyGraph.empty.addEdges
      [⟨"p.A", "p.B"⟩, ⟨"p.A", "p.C"⟩, ⟨"p.B", "p.A"⟩, ⟨"p.C", "p.A"⟩, ⟨"p.C", "p.B"⟩]
    find false symbols g = [["p.A", "p.B"], ["p.B", "p.A"], ["p.C", "p.A"]] ∧
    find true symbols g = [["p.A", "p.B"], ["p.B", "p.A", "p.C"], ["p.C", "p.A"]] ∧
    ¬ ∀ kept ∈ find true symbols g, ∃ cycle ∈ find false symbols g, kept.IsRotated cycle := by
  intro symbols g
  have plain : find false symbols g = [["p.A", "p.B"], ["p.B", "p.A"], ["p.C", "p.A"]] := by decide
  have merged : find true symbols g =
      [["p.A", "p.B"], ["p.B", "p.A", "p.C"], ["p.C", "p.A"]] := by decide
  refine ⟨plain, merged, ?_⟩
  rw [plain, merged]
  decide

end JavaAudit.Cycles
