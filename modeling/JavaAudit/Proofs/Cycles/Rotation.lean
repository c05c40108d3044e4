import JavaAudit.Proofs.Cycles.Reporting
import Mathlib.Data.List.Rotate

/-! Reporting without repeats. Two cycles have the same canonical rotation exactly when one is a
rotation of the other, and both ways of reporting can be run side by side: whatever the plain way
reports, the other way has reported up to rotation. -/
namespace JavaAudit.Cycles

theorem smallestLeast {cycle : List String} (filled : cycle ≠ []) :
    ∃ least, cycle[smallestIndex cycle]? = some least ∧ ∀ name ∈ cycle, least ≤ name := by
  fun_induction smallestIndex cycle with
  | case1 => contradiction
  | case2 x => exact ⟨x, rfl, by simp⟩
  | case3 x y rest i less ih =>
    obtain ⟨least, found, below⟩ := ih (by simp)
    refine ⟨least, found, fun name mem => ?_⟩
    rcases List.mem_cons.mp mem with rfl | mem
    · rw [List.getD_eq_getElem?_getD, found] at less
      exact String.not_lt.mp (String.lt_asymm less)
    · exact below name mem
  | case4 x y rest i notLess ih =>
    obtain ⟨least, found, below⟩ := ih (by simp)
    refine ⟨x, rfl, fun name mem => ?_⟩
    rcases List.mem_cons.mp mem with rfl | mem
    · exact String.le_refl name
    · rw [List.getD_eq_getElem?_getD, found] at notLess
      exact String.le_trans (String.not_lt.mp notLess) (below name mem)

theorem canonicalRotated (cycle : List String) : cycle.IsRotated (canonicalRotation cycle) := by
  by_cases filled : cycle = []
  · subst filled
    exact .refl []
  · obtain ⟨least, found, _⟩ := smallestLeast filled
    obtain ⟨bound, _⟩ := List.getElem?_eq_some_iff.mp found
    exact ⟨smallestIndex cycle, List.rotate_eq_drop_append_take bound.le⟩

theorem canonicalHead {cycle : List String} (filled : cycle ≠ []) :
    ∃ least ∈ cycle, (canonicalRotation cycle).head? = some least ∧
      ∀ name ∈ cycle, least ≤ name := by
  obtain ⟨least, found, below⟩ := smallestLeast filled
  refine ⟨least, List.mem_of_getElem? found, ?_, below⟩
  simp [canonicalRotation, List.head?_append, List.head?_drop, found]

theorem eqOfRotated {a b : List String} (rotated : a.IsRotated b) (distinct : a.Nodup)
    (heads : a.head? = b.head?) : a = b := by
  obtain ⟨n, bound, rfl⟩ := List.isRotated_iff_mod.mp rotated
  rcases bound.lt_or_eq with less | rfl
  · rw [List.head?_rotate less, List.head?_eq_getElem?] at heads
    have zero : 0 = n := (List.getElem?_inj (by omega) distinct).mp heads
    rw [← zero, List.rotate_zero]
  · rw [List.rotate_length]

theorem canonicalEqIff {a b : List String} (distinct : a.Nodup) :
    canonicalRotation a = canonicalRotation b ↔ a.IsRotated b := by
  constructor
  · intro same
    exact (same ▸ canonicalRotated a).trans (canonicalRotated b).symm
  · intro rotated
    have rotations : (canonicalRotation a).IsRotated (canonicalRotation b) :=
      ((canonicalRotated a).symm.trans rotated).trans (canonicalRotated b)
    refine eqOfRotated rotations ((canonicalRotated a).nodup_iff.mp distinct) ?_
    by_cases filled : a = []
    · subst filled
      rw [List.isRotated_nil_iff'.mp rotated]
    · have other : b ≠ [] := by
        rintro rfl
        exact filled (List.isRotated_nil_iff.mp rotated)
      obtain ⟨first, inFirst, headFirst, belowFirst⟩ := canonicalHead filled
      obtain ⟨second, inSecond, headSecond, belowSecond⟩ := canonicalHead other
      have same : first = second := String.le_antisymm
        (belowFirst second (rotated.mem_iff.mpr inSecond))
        (belowSecond first (rotated.mem_iff.mp inFirst))
      rw [headFirst, headSecond, same]

theorem canonicalClassifies {c d : List String} (filled : c ≠ []) (distinct : c.Nodup) :
    c.IsRotated (canonicalRotation c) ∧
    (∃ least ∈ c, (canonicalRotation c).head? = some least ∧ ∀ name ∈ c, least ≤ name) ∧
    canonicalRotation (canonicalRotation c) = canonicalRotation c ∧
    (canonicalRotation c = canonicalRotation d ↔ c.IsRotated d) := by
  have rotated := canonicalRotated c
  have twice : canonicalRotation c = canonicalRotation (canonicalRotation c) :=
    (canonicalEqIff distinct).mpr rotated
  exact ⟨rotated, canonicalHead filled, twice.symm, canonicalEqIff distinct⟩

theorem canonicalClassifiesTriangle :
    let c := ["p.C", "p.A", "p.B"]
    c ≠ [] ∧ c.Nodup ∧
    canonicalRotation c = ["p.A", "p.B", "p.C"] ∧
    canonicalRotation c = canonicalRotation ["p.B", "p.C", "p.A"] ∧
    canonicalRotation c ≠ canonicalRotation c.reverse := by
  intro c
  have filled : c ≠ [] := by decide
  have distinct : c.Nodup := by decide
  obtain ⟨-, -, -, turned⟩ := canonicalClassifies (d := ["p.B", "p.C", "p.A"]) filled distinct
  obtain ⟨-, -, -, reversed⟩ := canonicalClassifies (d := c.reverse) filled distinct
  have apart : ¬ c.IsRotated c.reverse := by decide
  exact ⟨filled, distinct, rfl, turned.mpr ⟨2, rfl⟩, fun same => apart (reversed.mp same)⟩

structure Keyed (f : Findings) : Prop where
  rotations : ∀ key, key ∈ f.rotations ↔ ∃ cycle ∈ f.cycles, canonicalRotation cycle = key
  apart : f.cycles.Pairwise fun a b => canonicalRotation a ≠ canonicalRotation b

theorem emptyKeyed : Keyed .empty := by
  constructor <;> simp [Findings.empty]

theorem recordKeyed {f : Findings} (cycle : List String) (keyed : Keyed f) :
    Keyed (f.record true cycle) := by
  cases first : cycle.head? with
  | none => rwa [recordHeadless first]
  | some head =>
    rcases recordCases true f first with ⟨_, same⟩ | ⟨_, _, same⟩ | ⟨_, fresh, added⟩
    · rwa [same]
    · rwa [same]
    · rw [added]
      refine ⟨fun key => ?_, ?_⟩
      · simp only [if_true, List.mem_cons, keyed.rotations key, List.mem_append, List.not_mem_nil,
          or_false, or_and_right, exists_or, exists_eq_left]
        rw [or_comm, eq_comm]
      · refine List.pairwise_append.mpr ⟨keyed.apart, List.pairwise_singleton _ _, ?_⟩
        intro other mem last single same
        rw [List.mem_singleton.mp single] at same
        exact fresh rfl ((keyed.rotations _).mpr ⟨other, mem, same⟩)

structure Simulates (merged plain : Findings) : Prop where
  heads : ∀ name ∈ merged.heads, name ∈ plain.heads
  cycles : ∀ cycle ∈ plain.cycles, canonicalRotation cycle ∈ merged.rotations

theorem recordSimulates {merged plain : Findings} (cycle : List String)
    (simulates : Simulates merged plain) :
    Simulates (merged.record true cycle) (plain.record false cycle) := by
  cases first : cycle.head? with
  | none => rwa [recordHeadless first, recordHeadless first]
  | some head =>
    rcases recordCases false plain first with ⟨known, same⟩ | ⟨impossible, _⟩ | ⟨fresh, _, longer⟩
    · rw [same]
      rcases recordCases true merged first with ⟨_, kept⟩ | ⟨_, _, kept⟩ | ⟨_, _, added⟩
      · rwa [kept]
      · rwa [kept]
      · rw [added]
        refine ⟨fun name mem => ?_, fun other mem =>
          List.mem_cons_of_mem _ (simulates.cycles other mem)⟩
        rcases NameSet.memInsert.mp mem with rfl | mem
        · exact known
        · exact simulates.heads name mem
    · contradiction
    · rw [longer]
      -- A head that is new to the plain findings is new to the others, so only a repeat is left out.
      rcases recordCases true merged first with ⟨known, _⟩ | ⟨_, repeated, kept⟩ | ⟨_, _, added⟩
      · exact absurd (simulates.heads head known) fresh
      · rw [kept]
        refine ⟨fun name mem => NameSet.memInsert.mpr (.inr (simulates.heads name mem)), ?_⟩
        intro other mem
        rcases List.mem_append.mp mem with mem | mem
        · exact simulates.cycles other mem
        · exact List.mem_singleton.mp mem ▸ repeated
      · rw [added]
        refine ⟨fun name mem => ?_, fun other mem => ?_⟩
        · rcases NameSet.memInsert.mp mem with rfl | mem
          · exact NameSet.memInsert.mpr (.inl rfl)
          · exact NameSet.memInsert.mpr (.inr (simulates.heads name mem))
        · rcases List.mem_append.mp mem with mem | mem
          · exact List.mem_cons_of_mem _ (simulates.cycles other mem)
          · exact List.mem_singleton.mp mem ▸ List.mem_cons_self

theorem foldSimulates (cycles : List (List String)) {merged plain : Findings}
    (simulates : Simulates merged plain) :
    Simulates (cycles.foldl (Findings.record true) merged)
      (cycles.foldl (Findings.record false) plain) := by
  induction cycles generalizing merged plain with
  | nil => exact simulates
  | cons cycle cycles ih => exact ih (recordSimulates cycle simulates)

theorem foldKeyed (cycles : List (List String)) :
    Keyed (cycles.foldl (Findings.record true) .empty) :=
  @foldKeeps true (fun f _ => Keyed f) (fun cycle => recordKeyed cycle) cycles .empty [] emptyKeyed

theorem mergedApart (symbols : SymbolTable) (g : DependencyGraph) :
    (find true symbols g).Pairwise fun a b => ¬ a.IsRotated b := by
  have sound := (headsOfFind true symbols g).2
  obtain ⟨cycles, -, -, same⟩ := findRecords symbols g
  have apart := (foldKeyed cycles).apart
  rw [← same] at apart
  refine apart.imp_of_mem fun {a b} mem _ different rotated => ?_
  exact different ((canonicalEqIff (sound a mem).distinct).mpr rotated)

theorem plainHasRotation {symbols : SymbolTable} {g : DependencyGraph} {cycle : List String}
    (mem : cycle ∈ find false symbols g) :
    ∃ kept ∈ find true symbols g, cycle.IsRotated kept := by
  have distinct := ((headsOfFind false symbols g).2 cycle mem).distinct
  obtain ⟨cycles, -, -, same⟩ := findRecords symbols g
  have start : Simulates .empty .empty := by constructor <;> simp [Findings.empty]
  rw [same] at mem ⊢
  have key := (foldSimulates cycles start).cycles cycle mem
  obtain ⟨kept, found, equal⟩ := ((foldKeyed cycles).rotations _).mp key
  exact ⟨kept, found, (canonicalEqIff distinct).mp equal.symm⟩

theorem mergedHeadsPlain {symbols : SymbolTable} {g : DependencyGraph} {kept : List String}
    (mem : kept ∈ find true symbols g) :
    ∃ cycle ∈ find false symbols g, cycle.head? = kept.head? := by
  have isCycle := (headsOfFind true symbols g).2 kept mem
  match shape : kept, isCycle.long with
  | name :: rest, _ =>
    have onCycle : OnCycle (Uses symbols g) name := ⟨kept, shape ▸ isCycle, by simp [shape]⟩
    exact plainFindComplete onCycle.entangled

theorem mergedLength (symbols : SymbolTable) (g : DependencyGraph) :
    (find true symbols g).length ≤ (find false symbols g).length := by
  have distinct : ((find true symbols g).map List.head?).Nodup :=
    List.pairwise_map.mpr (headsOfFind true symbols g).1
  have among : (find true symbols g).map List.head? ⊆ (find false symbols g).map List.head? := by
    intro head mem
    obtain ⟨kept, found, rfl⟩ := List.mem_map.mp mem
    obtain ⟨cycle, present, same⟩ := mergedHeadsPlain found
    exact List.mem_map.mpr ⟨cycle, present, same⟩
  simpa using (List.subperm_of_subset distinct among).length_le

theorem withoutRepeatsLosesNothing (symbols : SymbolTable) (g : DependencyGraph) :
    (∀ cycle ∈ find false symbols g,
      ∃! kept, kept ∈ find true symbols g ∧ cycle.IsRotated kept) ∧
    (find true symbols g).Pairwise (fun a b => ¬ a.IsRotated b) ∧
    (find true symbols g).Pairwise (fun a b => a.head? ≠ b.head?) ∧
    (∀ name, (∃ kept ∈ find true symbols g, name ∈ kept) ↔ OnCycle (Uses symbols g) name) ∧
    (find true symbols g).length ≤ (find false symbols g).length := by
  have apart := mergedApart symbols g
  obtain ⟨heads, sound⟩ := headsOfFind true symbols g
  refine ⟨fun cycle mem => ?_, apart, heads, fun name => ?_, mergedLength symbols g⟩
  · obtain ⟨kept, found, rotated⟩ := plainHasRotation mem
    refine ⟨kept, ⟨found, rotated⟩, fun other ⟨present, turned⟩ => ?_⟩
    by_contra different
    have : Std.Symm fun a b : List String => ¬ a.IsRotated b :=
      ⟨fun a b apart rotated => apart rotated.symm⟩
    exact apart.forall present found different (turned.symm.trans rotated)
  · constructor
    · rintro ⟨kept, found, mem⟩
      exact ⟨kept, sound kept found, mem⟩
    · intro onCycle
      obtain ⟨cycle, mem, head⟩ := plainFindComplete onCycle.entangled
      obtain ⟨kept, found, rotated⟩ := plainHasRotation mem
      exact ⟨kept, found, rotated.mem_iff.mp (List.mem_of_mem_head? head)⟩

theorem withoutRepeatsLosesNothingTriangle :
    let symbols := SymbolTable.empty.insertAll
      (["p.A", "p.B", "p.C"].map fun name => { (default : TypeInfo) with fullName := name })
    let g := DependencyGraph.empty.addEdges [⟨"p.A", "p.B"⟩, ⟨"p.B", "p.C"⟩, ⟨"p.C", "p.A"⟩]
    ["p.B", "p.C", "p.A"] ∈ find false symbols g ∧
    ["p.B", "p.C", "p.A"] ∉ find true symbols g ∧
    ∃! kept, kept ∈ find true symbols g ∧ ["p.B", "p.C", "p.A"].IsRotated kept := by
  intro symbols g
  have plain : ["p.B", "p.C", "p.A"] ∈ find false symbols g := by decide
  exact ⟨plain, by decide, (withoutRepeatsLosesNothing symbols g).1 _ plain⟩

end JavaAudit.Cycles
