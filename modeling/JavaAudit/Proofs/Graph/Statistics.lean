import JavaAudit.Graph.Statistics
import JavaAudit.Proofs.Graph.History
import Mathlib.Data.Finset.Card

/-! The figures of a graph against the calls that made it. Names and uses are counted once, however
often they were given, and of the names with the largest figure the smallest is told. -/
namespace JavaAudit.DependencyGraph

def Call.names : Call → List String
  | .node name => [name]
  | .edge source target => [source, target]

def Call.use? : Call → Option (String × String)
  | .node _ => none
  | .edge source target => some (source, target)

def namesGiven (history : List Call) : Finset String := (history.flatMap Call.names).toFinset

def usesGiven (history : List Call) : Finset (String × String) :=
  (history.filterMap Call.use?).toFinset

def sourcesGiven (history : List Call) (target : String) : Finset String :=
  ((usesGiven history).filter fun use => use.2 = target).image Prod.fst

def targetsGiven (history : List Call) (source : String) : Finset String :=
  ((usesGiven history).filter fun use => use.1 = source).image Prod.snd

section Given

variable {history : List Call}

theorem memUsesGiven {source target : String} :
    (source, target) ∈ usesGiven history ↔ .edge source target ∈ history := by
  rw [usesGiven, List.mem_toFinset, List.mem_filterMap]
  constructor
  · rintro ⟨c, mem, use⟩
    cases c with
    | node name => cases use
    | edge source target =>
      cases use
      exact mem
  · exact fun mem => ⟨_, mem, rfl⟩

theorem memNamesGiven {name : String} :
    name ∈ namesGiven history ↔
      .node name ∈ history ∨ (∃ target, .edge name target ∈ history) ∨
        ∃ source, .edge source name ∈ history := by
  rw [namesGiven, List.mem_toFinset, List.mem_flatMap]
  constructor
  · rintro ⟨c, mem, given⟩
    cases c with
    | node other =>
      cases List.mem_singleton.mp given
      exact .inl mem
    | edge source target =>
      rcases List.mem_pair.mp given with rfl | rfl
      · exact .inr (.inl ⟨target, mem⟩)
      · exact .inr (.inr ⟨source, mem⟩)
  · rintro (mem | ⟨target, mem⟩ | ⟨source, mem⟩)
    · exact ⟨_, mem, List.mem_singleton_self _⟩
    · exact ⟨_, mem, List.mem_pair.mpr (.inl rfl)⟩
    · exact ⟨_, mem, List.mem_pair.mpr (.inr rfl)⟩

theorem memSourcesGiven {source target : String} :
    source ∈ sourcesGiven history target ↔ .edge source target ∈ history := by
  simp [sourcesGiven, memUsesGiven]

theorem memTargetsGiven {source target : String} :
    target ∈ targetsGiven history source ↔ .edge source target ∈ history := by
  simp [targetsGiven, memUsesGiven]

end Given

/-- The largest figure, and the smallest name that has it. No name has it while all figures are zero. -/
structure Largest (figure : String → Nat) (most : Nat) (first : Option String) : Prop where
  bound : ∀ name, figure name ≤ most
  absent : first = none ↔ most = 0
  least : ∀ name, first = some name →
    figure name = most ∧ ∀ other, figure other = most → ¬ other < name

theorem Largest.noneIff {figure : String → Nat} {most : Nat} {first : Option String}
    (largest : Largest figure most first) :
    first = none ∧ most = 0 ↔ ∀ name, figure name = 0 := by
  constructor
  · rintro ⟨-, rfl⟩ name
    exact Nat.le_zero.mp (largest.bound name)
  · intro zero
    have noName : first = none := by
      cases found : first with
      | none => rfl
      | some name =>
        have attains := (largest.least name found).1
        rw [zero name] at attains
        rw [largest.absent.mpr attains.symm] at found
        cases found
    exact ⟨noName, largest.absent.mp noName⟩

section Running

variable {figure : String → Nat}

structure LargestAmong (figure : String → Nat) (names : List String) (best : Nat × Option String) :
    Prop where
  bound : ∀ name ∈ names, figure name ≤ best.1
  absent : best.2 = none ↔ best.1 = 0
  least : ∀ name, best.2 = some name →
    name ∈ names ∧ figure name = best.1 ∧ ∀ other ∈ names, figure other = best.1 → ¬ other < name

theorem largestAmongMore {names : List String} {best : Nat × Option String} {name : String}
    (known : LargestAmong figure names best) (later : ∀ other ∈ names, other < name) :
    LargestAmong figure (names ++ [name])
      (if best.1 < figure name then (figure name, some name) else best) := by
  split
  · next more =>
    -- All names before have smaller figures, so the new one stands alone.
    have smaller : ∀ other ∈ names, figure other < figure name :=
      fun other mem => Nat.lt_of_le_of_lt (known.bound other mem) more
    refine ⟨fun other mem => ?_, ?_, ?_⟩
    · rcases List.mem_append.mp mem with mem | mem
      · exact Nat.le_of_lt (smaller other mem)
      · rw [List.mem_singleton.mp mem]
    · simp only [reduceCtorEq, false_iff]
      omega
    · rintro _ ⟨⟩
      refine ⟨by simp, rfl, fun other mem same => ?_⟩
      rcases List.mem_append.mp mem with mem | mem
      · exact absurd same (Nat.ne_of_lt (smaller other mem))
      · rw [List.mem_singleton.mp mem]
        exact String.lt_irrefl name
  · next noMore =>
    refine ⟨fun other mem => ?_, known.absent, fun first found => ?_⟩
    · rcases List.mem_append.mp mem with mem | mem
      · exact known.bound other mem
      · rw [List.mem_singleton.mp mem]
        exact Nat.not_lt.mp noMore
    · obtain ⟨among, attains, least⟩ := known.least first found
      refine ⟨List.mem_append_left _ among, attains, fun other mem same => ?_⟩
      rcases List.mem_append.mp mem with mem | mem
      · exact least other mem same
      · rw [List.mem_singleton.mp mem]
        exact String.lt_asymm (later first among)

theorem largestAmongRun {sets : List (String × NameSet)} {names : List String}
    {best : Nat × Option String} (known : LargestAmong figure names best)
    (order : (names ++ sets.map Prod.fst).Pairwise (· < ·))
    (sizes : ∀ entry ∈ sets, entry.2.size = figure entry.1) :
    LargestAmong figure (names ++ sets.map Prod.fst)
      (sets.foldl (fun best (name, s) => if best.1 < s.size then (s.size, some name) else best)
        best) := by
  induction sets generalizing names best with
  | nil => simpa using known
  | cons entry sets ih =>
    obtain ⟨name, s⟩ := entry
    have later : ∀ other ∈ names, other < name :=
      fun other mem => (List.pairwise_append.mp order).2.2 other mem name List.mem_cons_self
    have more := largestAmongMore known later
    rw [← sizes (name, s) List.mem_cons_self] at more
    rw [List.map_cons, List.append_cons] at order ⊢
    exact ih more order fun entry mem => sizes entry (List.mem_cons_of_mem _ mem)

end Running

theorem largestExact (sets : NameMap NameSet) :
    Largest (fun name => ((sets.get? name).getD .empty).size) (largest sets).1
      (largest sets).2 := by
  have start : LargestAmong (fun name => ((sets.get? name).getD .empty).size) [] (0, none) :=
    ⟨by simp, by simp, by simp⟩
  have sizes : ∀ entry ∈ sets.toList,
      entry.2.size = ((sets.get? entry.1).getD .empty).size := by
    intro entry mem
    rw [NameMap.memOfGet.mpr mem, Option.getD_some]
  have whole : LargestAmong _ sets.keys (largest sets) :=
    largestAmongRun start sets.keysIncreasing sizes
  -- A name without a set has the figure zero, which is no more than any other.
  have unknown : ∀ name, name ∉ sets.keys → ((sets.get? name).getD .empty).size = 0 := by
    intro name absent
    rw [NameMap.memKeys, NameMap.containsIff] at absent
    cases found : sets.get? name with
    | none => rfl
    | some s => exact absurd ⟨s, found⟩ absent
  refine ⟨fun name => ?_, whole.absent, fun name found => ?_⟩
  · by_cases mem : name ∈ sets.keys
    · exact whole.bound name mem
    · rw [unknown name mem]
      exact Nat.zero_le _
  · obtain ⟨-, attains, least⟩ := whole.least name found
    refine ⟨attains, fun other same => ?_⟩
    by_cases mem : other ∈ sets.keys
    · exact least other mem same
    · rw [unknown other mem] at same
      rw [whole.absent.mpr same.symm] at found
      cases found

theorem cardOfList {α : Type} [DecidableEq α] {xs : List α} (distinct : xs.Nodup) {s : Finset α}
    (same : ∀ x, x ∈ xs ↔ x ∈ s) : xs.length = s.card := by
  rw [← List.toFinset_card_of_nodup distinct]
  congr 1
  ext x
  rw [List.mem_toFinset, same]

theorem selfLoopsListed (m : NameMap NameSet) :
    (m.toList.countP fun (name, targets) => targets.contains name) =
      (m.keys.filter fun name => ((m.get? name).getD .empty).contains name).length := by
  rw [NameMap.keys, List.filter_map, List.length_map, ← List.countP_eq_length_filter]
  refine List.countP_congr fun entry mem => ?_
  rw [Function.comp, NameMap.memOfGet.mpr mem, Option.getD_some]

theorem statisticsExact (history : List Call) :
    let s := (empty.calls history).2.statistics
    let fanIn (name : String) := (sourcesGiven history name).card
    let fanOut (name : String) := (targetsGiven history name).card
    s.totalNodes = (namesGiven history).card ∧
    s.totalEdges = (usesGiven history).card ∧
    s.selfLoops = ((namesGiven history).filter fun name => (name, name) ∈ usesGiven history).card ∧
    Largest fanIn s.maxFanIn s.maxFanInType ∧
    Largest fanOut s.maxFanOut s.maxFanOutType ∧
    (s.maxFanInType = none ∧ s.maxFanIn = 0 ↔ ∀ source target, .edge source target ∉ history) ∧
    (s.maxFanOutType = none ∧ s.maxFanOut = 0 ↔ ∀ source target, .edge source target ∉ history) := by
  intro s fanIn fanOut
  have describes := historyDescribes history
  have ins : ∀ name, fanIn name = ((empty.calls history).2.sources name).size := fun name =>
    (cardOfList (NameSet.distinct _) fun source =>
      (describes.sources source name).trans memSourcesGiven.symm).symm
  have outs : ∀ name, fanOut name = ((empty.calls history).2.targets name).size := fun name =>
    (cardOfList (NameSet.distinct _) fun target =>
      (describes.targets name target).trans memTargetsGiven.symm).symm
  have largestIn : Largest fanIn s.maxFanIn s.maxFanInType := by
    rw [funext ins]
    exact largestExact _
  have largestOut : Largest fanOut s.maxFanOut s.maxFanOutType := by
    rw [funext outs]
    exact largestExact _
  refine ⟨?_, ?_, ?_, largestIn, largestOut, ?_, ?_⟩
  · refine cardOfList (NameSet.distinct _) fun name => ?_
    rw [memNamesGiven, ← NameSet.memDef, NameSet.memOfList, List.mem_append, NameMap.memKeys,
      NameMap.memKeys, describes.users, describes.used, or_assoc]
  · have counted : s.totalEdges = (pairs (empty.calls history).2.dependencies).length :=
      (pairsLength _).symm
    rw [counted]
    refine cardOfList (pairsDistinct _) fun (source, target) => ?_
    rw [memUsesGiven, memPairs]
    exact describes.targets source target
  · have counted : s.selfLoops = _ := selfLoopsListed (empty.calls history).2.dependencies
    rw [counted]
    refine cardOfList ((distinctOfIncreasing id (NameMap.keysIncreasing _)).filter _) fun name => ?_
    rw [List.mem_filter, NameSet.containsIff, Finset.mem_filter, memNamesGiven, memUsesGiven,
      NameMap.memKeys, describes.users]
    have loop : name ∈ (empty.calls history).2.targets name ↔ _ := describes.targets name name
    constructor
    · rintro ⟨-, mem⟩
      exact ⟨.inr (.inl ⟨name, loop.mp mem⟩), loop.mp mem⟩
    · rintro ⟨-, use⟩
      exact ⟨.inr ⟨name, use⟩, loop.mpr use⟩
  · rw [largestIn.noneIff, forall_comm]
    refine forall_congr' fun name => ?_
    simp only [fanIn, Finset.card_eq_zero, Finset.eq_empty_iff_forall_notMem, memSourcesGiven]
  · rw [largestOut.noneIff]
    refine forall_congr' fun name => ?_
    simp only [fanOut, Finset.card_eq_zero, Finset.eq_empty_iff_forall_notMem, memTargetsGiven]

theorem statisticsExactTie :
    let history : List Call := [.edge "p.B" "p.B", .node "p.D", .edge "p.A" "p.C", .edge "p.A" "p.C",
      .edge "p.B" "p.C", .edge "p.A" "p.B"]
    let s := (empty.calls history).2.statistics
    s.totalNodes = 4 ∧ s.totalEdges = 4 ∧ s.selfLoops = 1 ∧
    s.maxFanInType = some "p.B" ∧ s.maxFanIn = 2 ∧ (sourcesGiven history "p.C").card = 2 ∧
    ¬ (s.maxFanOutType = none ∧ s.maxFanOut = 0) := by
  intro history s
  obtain ⟨nodes, edges, loops, largestIn, -, -, noUse⟩ := statisticsExact history
  have first : s.maxFanInType = some "p.B" := by decide
  have most := (largestIn.least "p.B" first).1
  refine ⟨nodes.trans (by decide), edges.trans (by decide), loops.trans (by decide), first,
    most.symm.trans (by decide), by decide, fun none => ?_⟩
  exact noUse.mp none "p.A" "p.B" (by decide)

end JavaAudit.DependencyGraph
