import JavaAudit.Proofs.Graph.Edges

/-! Graphs as they grow, call by call. The two maps of a graph hold the uses that were asked for, each
map read from its own side, and a call tells whether its use is the first of its kind. -/
namespace JavaAudit.DependencyGraph

inductive Call where
  | node (name : String)
  | edge (source target : String)
  deriving DecidableEq, Repr

def call (g : DependencyGraph) : Call → Option Bool × DependencyGraph
  | .node name => (none, g.addNode name)
  | .edge source target => ((g.connect source target).1, (g.connect source target).2)

def calls (g : DependencyGraph) : List Call → List (Option Bool) × DependencyGraph
  | [] => ([], g)
  | c :: cs => ((g.call c).1 :: ((g.call c).2.calls cs).1, ((g.call c).2.calls cs).2)

theorem connectGraph (g : DependencyGraph) (source target : String) :
    (g.connect source target).2 = g.addEdge source target := by
  have dependencies : g.dependencies.insert source ((g.targets source).insert target) =
      g.dependencies.alter source (·.getD .empty |>.insert target) := by
    refine NameMap.eqOfGet fun name => ?_
    simp [NameMap.getAlter, targets]
  simp only [connect, NameSet.insertNew, addEdge, dependencies]

theorem connectIsNew (g : DependencyGraph) (source target : String) :
    (g.connect source target).1 = !g.hasEdge source target :=
  rfl

section Growth

variable {registered : String → Prop} {uses : String → String → Prop} {g : DependencyGraph}

theorem callDescribes (describes : Describes registered uses g) (c : Call) :
    Describes (fun a => registered a ∨ .node a = c) (fun a b => uses a b ∨ .edge a b = c)
      (g.call c).2 := by
  cases c with
  | node name =>
    refine (addNodeDescribes describes name).congr (fun a => ?_) fun a b => ?_
    · simp
    · simp
  | edge source target =>
    rw [call, connectGraph]
    refine (addEdgeDescribes describes source target).congr (fun a => ?_) fun a b => ?_
    · simp
    · simp

theorem callsDescribe (describes : Describes registered uses g) (cs : List Call) :
    Describes (fun a => registered a ∨ .node a ∈ cs) (fun a b => uses a b ∨ .edge a b ∈ cs)
      (g.calls cs).2 := by
  induction cs generalizing registered uses g with
  | nil => simpa [calls] using describes
  | cons c cs ih =>
    refine (ih (callDescribes describes c)).congr (fun a => ?_) fun a b => ?_
    · simp [or_assoc]
    · simp [or_assoc]

end Growth

theorem historyDescribes (history : List Call) :
    Describes (fun a => .node a ∈ history) (fun a b => .edge a b ∈ history)
      (empty.calls history).2 := by
  refine (callsDescribe emptyDescribes history).congr (fun a => ?_) fun a b => ?_
  · simp
  · simp

theorem callsAppend (g : DependencyGraph) (before after : List Call) :
    (g.calls (before ++ after)).1 = (g.calls before).1 ++ ((g.calls before).2.calls after).1 := by
  induction before generalizing g with
  | nil => rfl
  | cons c before ih => simp [calls, ih]

theorem callsAnswered (g : DependencyGraph) (cs : List Call) :
    (g.calls cs).1.length = cs.length := by
  induction cs generalizing g with
  | nil => rfl
  | cons c cs ih => simp [calls, ih]

def pairs (m : NameMap NameSet) : List (String × String) :=
  m.toList.flatMap fun (name, others) => others.toList.map (name, ·)

theorem pairsLength (m : NameMap NameSet) :
    (pairs m).length = (m.values.map NameSet.size).foldr (· + ·) 0 := by
  rw [pairs, NameMap.values]
  induction m.toList with
  | nil => rfl
  | cons entry entries ih => simp [NameSet.size, ih]

theorem memPairs {m : NameMap NameSet} {a b : String} :
    (a, b) ∈ pairs m ↔ b ∈ (m.get? a).getD .empty := by
  simp only [pairs, List.mem_flatMap, List.mem_map, Prod.mk.injEq]
  constructor
  · rintro ⟨⟨name, others⟩, entry, b', mem, rfl, rfl⟩
    rw [NameMap.memOfGet.mpr entry]
    exact mem
  · intro mem
    cases value : m.get? a with
    | none => simp [value] at mem
    | some others =>
      rw [value] at mem
      exact ⟨(a, others), NameMap.memOfGet.mp value, b, mem, rfl, rfl⟩

theorem pairsDistinct (m : NameMap NameSet) : (pairs m).Nodup := by
  refine List.nodup_flatMap.mpr ⟨fun entry _ => ?_, m.increasing.imp fun {a b} less => ?_⟩
  · refine List.Nodup.map (fun x y same => (Prod.mk.inj same).2) ?_
    exact entry.2.increasing.imp fun less => String.ne_of_lt less
  · intro pair first second
    obtain ⟨_, _, rfl⟩ := List.mem_map.mp first
    obtain ⟨_, _, same⟩ := List.mem_map.mp second
    exact String.ne_of_lt less (Prod.mk.inj same).1.symm

theorem usesFromBothSides {registered : String → Prop} {uses : String → String → Prop}
    {g : DependencyGraph} (describes : Describes registered uses g) :
    (pairs g.dependencies).length = (pairs g.usedBy).length := by
  have swapped : (pairs g.dependencies).Perm ((pairs g.usedBy).map Prod.swap) := by
    refine (List.perm_ext_iff_of_nodup (pairsDistinct _) ?_).mpr fun (a, b) => ?_
    · exact (pairsDistinct _).map Prod.swap_injective
    · have forward : (a, b) ∈ pairs g.dependencies ↔ uses a b := memPairs.trans (describes.targets a b)
      have backward : (b, a) ∈ pairs g.usedBy ↔ uses a b := memPairs.trans (describes.sources a b)
      rw [forward, ← backward, List.mem_map]
      constructor
      · exact fun mem => ⟨(b, a), mem, rfl⟩
      · rintro ⟨⟨b', a'⟩, mem, same⟩
        cases same
        exact mem
  simpa using swapped.length_eq

theorem memUsersOf {g : DependencyGraph} {source target : String} :
    source ∈ g.usersOf target ↔ source ∈ g.sources target ∧ source ≠ target := by
  simp [usersOf, NameSet.memDef]

theorem usersIncreasing (g : DependencyGraph) (target : String) :
    (g.usersOf target).Pairwise (· < ·) :=
  (g.sources target).increasing.filter _

theorem usedByFilled {registered : String → Prop} {uses : String → String → Prop}
    {g : DependencyGraph} (describes : Describes registered uses g) {target : String}
    {users : NameSet} (entry : g.usedBy.get? target = some users) : users ≠ .empty := by
  rintro rfl
  obtain ⟨source, use⟩ := (describes.used target).mp (NameMap.containsIff.mpr ⟨_, entry⟩)
  have mem := (describes.sources source target).mpr use
  simp [sources, entry] at mem

theorem adjacencyExact (history : List Call) :
    let g := (empty.calls history).2
    (∀ source target, target ∈ g.targets source ↔ .edge source target ∈ history) ∧
    (∀ source target, source ∈ g.sources target ↔ .edge source target ∈ history) ∧
    (∀ target users, g.usedBy.get? target = some users → users ≠ .empty) ∧
    g.edgeCount = (g.dependencies.values.map NameSet.size).foldr (· + ·) 0 ∧
    g.edgeCount = (g.usedBy.values.map NameSet.size).foldr (· + ·) 0 ∧
    (∀ target, (g.usersOf target).Pairwise (· < ·) ∧ ∀ source,
      source ∈ g.usersOf target ↔ source ≠ target ∧ g.hasEdge source target = true) ∧
    (∀ before source target after, history = before ++ .edge source target :: after →
      ∃ isNew, (empty.calls history).1[before.length]? = some (some isNew) ∧
        (isNew = true ↔ (empty.calls before).2.hasEdge source target = false) ∧
        (isNew = true ↔ .edge source target ∉ before)) := by
  intro g
  have describes := historyDescribes history
  refine ⟨describes.targets, describes.sources, fun target users => usedByFilled describes, rfl, ?_,
    fun target => ⟨usersIncreasing g target, fun source => ?_⟩, ?_⟩
  · rw [← pairsLength, ← usesFromBothSides describes, pairsLength]
    rfl
  · rw [memUsersOf, hasEdgeIff, describes.sources, describes.targets, and_comm]
  · rintro before source target after rfl
    have answer : (empty.calls (before ++ .edge source target :: after)).1[before.length]? =
        some (some ((empty.calls before).2.connect source target).1) := by
      rw [callsAppend, List.getElem?_append_right (by rw [callsAnswered]), callsAnswered]
      simp [calls, call]
    have asked := hasEdgeIff.trans ((historyDescribes before).targets source target)
    refine ⟨_, answer, ?_, ?_⟩
    · rw [connectIsNew, Bool.not_eq_true']
    · rw [connectIsNew, Bool.not_eq_true', ← asked, Bool.not_eq_true]

theorem adjacencyExactRepeatedUse :
    let history : List Call := [.node "p.C", .edge "p.A" "p.A", .edge "p.A" "p.B",
      .edge "p.A" "p.B", .edge "p.C" "p.B"]
    (empty.calls history).2.usedBy.get? "p.B" = some (.ofList ["p.A", "p.C"]) ∧
    NameSet.ofList ["p.A", "p.C"] ≠ .empty ∧
    (empty.calls history).1[3]? = some (some false) := by
  intro history
  obtain ⟨_, _, filled, _, _, _, answers⟩ := adjacencyExact history
  have users : (empty.calls history).2.usedBy.get? "p.B" = some (.ofList ["p.A", "p.C"]) := by decide
  obtain ⟨isNew, answer, _, first⟩ := answers
    [.node "p.C", .edge "p.A" "p.A", .edge "p.A" "p.B"] "p.A" "p.B" [.edge "p.C" "p.B"] rfl
  have repeated : isNew = false := by
    rw [← Bool.not_eq_true, first]
    decide
  exact ⟨users, filled _ _ users, repeated ▸ answer⟩

end JavaAudit.DependencyGraph
