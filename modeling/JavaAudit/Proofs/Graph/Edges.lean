import JavaAudit.Graph.Build
import JavaAudit.Proofs.Names

/-! A dependency graph holds each use twice and no more than its uses and registered names: they
determine it. The graph of a project has exactly the uses that its files give rise to, whatever the
order of the files and of their imports. -/
namespace JavaAudit
open DependencyGraph

structure Describes (registered : String → Prop) (uses : String → String → Prop)
    (g : DependencyGraph) : Prop where
  targets : ∀ a b, b ∈ g.targets a ↔ uses a b
  sources : ∀ a b, a ∈ g.sources b ↔ uses a b
  users : ∀ a, g.dependencies.contains a = true ↔ registered a ∨ ∃ b, uses a b
  used : ∀ b, g.usedBy.contains b = true ↔ ∃ a, uses a b

theorem hasEdgeIff {g : DependencyGraph} {a b : String} : g.hasEdge a b = true ↔ b ∈ g.targets a :=
  NameSet.containsIff

theorem memInsertAt {m : NameMap NameSet} {a b x y : String} :
    b ∈ ((m.alter x (·.getD .empty |>.insert y)).get? a).getD .empty ↔
      b ∈ (m.get? a).getD .empty ∨ (a = x ∧ b = y) := by
  by_cases same : a = x
  · simp [NameMap.getAlter, same, or_comm]
  · simp [NameMap.getAlter, same]

theorem memTargetsAddEdge {g : DependencyGraph} {source target a b : String} :
    b ∈ (g.addEdge source target).targets a ↔ b ∈ g.targets a ∨ (a = source ∧ b = target) :=
  memInsertAt

theorem memSourcesAddEdge {g : DependencyGraph} {source target a b : String} :
    a ∈ (g.addEdge source target).sources b ↔ a ∈ g.sources b ∨ (a = source ∧ b = target) := by
  rw [and_comm]
  exact memInsertAt

theorem eqOfMembers {m n : NameMap NameSet} (keys : ∀ a, m.contains a = true ↔ n.contains a = true)
    (members : ∀ a b, b ∈ (m.get? a).getD .empty ↔ b ∈ (n.get? a).getD .empty) : m = n := by
  refine NameMap.eqOfGet fun a => ?_
  have known := keys a
  have same : (m.get? a).getD .empty = (n.get? a).getD .empty := NameSet.eqOfMem (members a)
  rw [NameMap.containsIff, NameMap.containsIff] at known
  cases left : m.get? a with
  | none => cases right : n.get? a with
    | none => rfl
    | some set => simp [left, right] at known
  | some set => cases right : n.get? a with
    | none => simp [left, right] at known
    | some other => simpa [left, right] using same

section Describes

variable {registered : String → Prop} {uses : String → String → Prop} {g h : DependencyGraph}

theorem Describes.unique (first : Describes registered uses g)
    (second : Describes registered uses h) : g = h := by
  have dependencies : g.dependencies = h.dependencies := eqOfMembers
    (fun a => (first.users a).trans (second.users a).symm)
    (fun a b => (first.targets a b).trans (second.targets a b).symm)
  have usedBy : g.usedBy = h.usedBy := eqOfMembers
    (fun b => (first.used b).trans (second.used b).symm)
    (fun b a => (first.sources a b).trans (second.sources a b).symm)
  calc
    g = ⟨g.dependencies, g.usedBy⟩ := rfl
    _ = ⟨h.dependencies, h.usedBy⟩ := by rw [dependencies, usedBy]

theorem Describes.congr {others : String → Prop} {links : String → String → Prop}
    (describes : Describes registered uses g) (names : ∀ a, registered a ↔ others a)
    (same : ∀ a b, uses a b ↔ links a b) : Describes others links g := by
  obtain rfl : registered = others := funext fun a => propext (names a)
  obtain rfl : uses = links := funext fun a => funext fun b => propext (same a b)
  exact describes

theorem emptyDescribes : Describes (fun _ => False) (fun _ _ => False) .empty := by
  constructor <;> simp [DependencyGraph.empty, DependencyGraph.targets, DependencyGraph.sources,
    NameMap.containsIff]

theorem addNodeDescribes (describes : Describes registered uses g) (name : String) :
    Describes (fun a => registered a ∨ a = name) uses (g.addNode name) := by
  refine ⟨fun a b => ?_, describes.sources, fun a => ?_, describes.used⟩
  · rw [← describes.targets a b]
    by_cases same : a = name <;> simp [addNode, targets, NameMap.getAlter, same]
  · have before := describes.users a
    rw [NameMap.containsIff] at before ⊢
    by_cases same : a = name
    · simp [addNode, NameMap.getAlter, same]
    · simpa [addNode, NameMap.getAlter, same] using before

theorem addEdgeDescribes (describes : Describes registered uses g) (source target : String) :
    Describes registered (fun a b => uses a b ∨ (a = source ∧ b = target))
      (g.addEdge source target) := by
  refine ⟨fun a b => ?_, fun a b => ?_, fun a => ?_, fun b => ?_⟩
  · rw [memTargetsAddEdge, describes.targets]
  · rw [memSourcesAddEdge, describes.sources]
  · have before := describes.users a
    rw [NameMap.containsIff] at before ⊢
    by_cases same : a = source
    · simp [addEdge, NameMap.getAlter, same]
    · simpa [addEdge, NameMap.getAlter, same] using before
  · have before := describes.used b
    rw [NameMap.containsIff] at before ⊢
    by_cases same : b = target
    · simp [addEdge, NameMap.getAlter, same]
    · simpa [addEdge, NameMap.getAlter, same] using before

theorem addNodesDescribe (describes : Describes registered uses g) (names : List String) :
    Describes (fun a => registered a ∨ a ∈ names) uses (names.foldl addNode g) := by
  induction names generalizing registered g with
  | nil => simpa using describes
  | cons name names ih =>
    refine (ih (addNodeDescribes describes name)).congr (fun a => ?_) fun _ _ => Iff.rfl
    simp [or_assoc]

theorem addEdgesDescribe (describes : Describes registered uses g) (edges : List DependencyEdge) :
    Describes registered (fun a b => uses a b ∨ ⟨a, b⟩ ∈ edges) (g.addEdges edges) := by
  induction edges generalizing uses g with
  | nil => simpa [DependencyGraph.addEdges] using describes
  | cons edge edges ih =>
    obtain ⟨source, target⟩ := edge
    refine (ih (addEdgeDescribes describes source target)).congr (fun _ => Iff.rfl) fun a b => ?_
    simp [or_assoc]

end Describes

def Declares (f : FileFacts) (name : String) : Prop := ∃ t ∈ f.types, t.fullName = name

/-- The two ways in which a file leads to a type: by an import of it, or by a name that means it in
the package of the file. -/
def Mentions (samePackage : Bool) (symbols : SymbolTable) (f : FileFacts) (target : String) :
    Prop :=
  (∃ i ∈ f.imports, i.isWildcard = false ∧ i.path = target ∧
    (symbols.contains target = true ∨ simpleName target ∈ f.usedTypes)) ∨
  (samePackage = true ∧ symbols.contains target = true ∧
    ∃ name ∈ f.usedTypes, qualify f.package name = target)

section Files

variable {samePackage : Bool} {symbols : SymbolTable}

theorem memImportTargets {f : FileFacts} {target : String} :
    target ∈ importTargets symbols f ↔ ∃ i ∈ f.imports, i.isWildcard = false ∧ i.path = target ∧
      (symbols.contains target = true ∨ simpleName target ∈ f.usedTypes) := by
  simp only [importTargets, List.mem_map, List.mem_filter, Bool.and_eq_true, Bool.or_eq_true,
    Bool.not_eq_true', NameSet.containsIff, ImportRef.simpleName]
  constructor
  · rintro ⟨i, ⟨mem, named, linked⟩, rfl⟩
    exact ⟨i, mem, named, rfl, linked⟩
  · rintro ⟨i, mem, named, rfl, linked⟩
    exact ⟨i, ⟨mem, named, linked⟩, rfl⟩

theorem memPackageTargets {f : FileFacts} {target : String} :
    target ∈ packageTargets symbols f ↔ symbols.contains target = true ∧
      ∃ name ∈ f.usedTypes, qualify f.package name = target := by
  simp only [packageTargets, List.mem_filter, List.mem_map, NameSet.memDef]
  exact and_comm

theorem memFileEdges {f : FileFacts} {source target : String} :
    ⟨source, target⟩ ∈ fileEdges samePackage symbols f ↔
      Declares f source ∧ Mentions samePackage symbols f target := by
  have targets : target ∈ fileTargets samePackage symbols f ↔
      Mentions samePackage symbols f target := by
    rw [fileTargets, List.mem_append, memImportTargets]
    cases samePackage <;> simp [Mentions, memPackageTargets]
  rw [← targets]
  simp only [fileEdges, List.mem_flatMap, List.mem_map, DependencyEdge.mk.injEq, Declares]
  constructor
  · rintro ⟨_, mem, t, declared, name, rfl⟩
    exact ⟨⟨t, declared, name⟩, mem⟩
  · rintro ⟨⟨t, declared, name⟩, mem⟩
    exact ⟨target, mem, t, declared, name, rfl⟩

theorem addFilesDescribe {registered : String → Prop} {uses : String → String → Prop}
    {g : DependencyGraph} (describes : Describes registered uses g) (files : List FileFacts) :
    Describes registered
      (fun a b => uses a b ∨ ∃ f ∈ files, Declares f a ∧ Mentions samePackage symbols f b)
      (files.foldl (fun g f => g.addEdges (fileEdges samePackage symbols f)) g) := by
  induction files generalizing uses g with
  | nil => simpa using describes
  | cons f files ih =>
    have edges := addEdgesDescribe describes (fileEdges samePackage symbols f)
    refine (ih edges).congr (fun _ => Iff.rfl) fun a b => ?_
    simp [memFileEdges, or_assoc]

def ProjectUses (samePackage : Bool) (symbols : SymbolTable) (files : List (Option FileFacts))
    (a b : String) : Prop :=
  ∃ f, some f ∈ files ∧ Declares f a ∧ Mentions samePackage symbols f b

theorem buildGraphDescribes (samePackage : Bool) (symbols : SymbolTable)
    (files : List (Option FileFacts)) :
    Describes (fun a => symbols.contains a = true) (ProjectUses samePackage symbols files)
      (buildGraph samePackage symbols files) := by
  have registered := addNodesDescribe emptyDescribes symbols.names
  refine (addFilesDescribe registered (files.filterMap id)).congr (fun a => ?_) fun a b => ?_
  · simp [SymbolTable.memNames]
  · simp [ProjectUses]

theorem usersDeclared (samePackage : Bool) {files : List (Option FileFacts)}
    (declared : ∀ f, some f ∈ files → ∀ t ∈ f.types, symbols.contains t.fullName = true)
    (name : String) : (buildGraph samePackage symbols files).dependencies.contains name = true ↔
      symbols.contains name = true := by
  rw [(buildGraphDescribes samePackage symbols files).users]
  constructor
  · rintro (known | ⟨_, f, mem, ⟨t, declares, rfl⟩, _⟩)
    · exact known
    · exact declared f mem t declares
  · exact .inl

def ImportsReordered (f h : FileFacts) : Prop :=
  f.imports.Perm h.imports ∧ h = { f with imports := h.imports }

def Reordered (files others : List (Option FileFacts)) : Prop :=
  ∃ middle, files.Perm middle ∧ List.Forall₂ (Option.Rel ImportsReordered) middle others

theorem importsReorderedUses {f h : FileFacts} (same : ImportsReordered f h) (a b : String) :
    (Declares f a ∧ Mentions samePackage symbols f b) ↔
      (Declares h a ∧ Mentions samePackage symbols h b) := by
  obtain ⟨perm, shape⟩ := same
  rw [shape]
  simp only [Declares, Mentions, perm.mem_iff]

theorem forallPairs {α β : Type} {r : α → β → Prop} {xs : List α} {ys : List β}
    (pairs : List.Forall₂ r xs ys) {x : α} (mem : x ∈ xs) : ∃ y ∈ ys, r x y := by
  induction pairs with
  | nil => simp at mem
  | cons pair _ ih =>
    rcases List.mem_cons.mp mem with rfl | mem
    · exact ⟨_, List.mem_cons_self, pair⟩
    · obtain ⟨y, present, related⟩ := ih mem
      exact ⟨y, List.mem_cons_of_mem _ present, related⟩

theorem reorderedUses {files others : List (Option FileFacts)} (reordered : Reordered files others)
    (a b : String) : ProjectUses samePackage symbols others a b ↔
      ProjectUses samePackage symbols files a b := by
  obtain ⟨middle, perm, pairs⟩ := reordered
  constructor
  · rintro ⟨h, mem, uses⟩
    obtain ⟨_, mem, related⟩ := forallPairs pairs.flip mem
    cases related with
    | some same => exact ⟨_, perm.mem_iff.mpr mem, (importsReorderedUses same a b).mpr uses⟩
  · rintro ⟨f, mem, uses⟩
    obtain ⟨_, mem, related⟩ := forallPairs pairs (perm.mem_iff.mp mem)
    cases related with
    | some same => exact ⟨_, mem, (importsReorderedUses same a b).mp uses⟩

end Files

theorem buildGraphExact (samePackage : Bool) (symbols : SymbolTable)
    (files : List (Option FileFacts)) :
    (∀ source target, (buildGraph samePackage symbols files).hasEdge source target = true ↔
      ∃ f, some f ∈ files ∧ (∃ t ∈ f.types, t.fullName = source) ∧
        ((∃ i ∈ f.imports, i.isWildcard = false ∧ i.path = target ∧
            (symbols.contains target = true ∨ simpleName target ∈ f.usedTypes)) ∨
          (samePackage = true ∧ symbols.contains target = true ∧
            ∃ name ∈ f.usedTypes, qualify f.package name = target))) ∧
    (∀ source target, source ∈ (buildGraph samePackage symbols files).sources target ↔
      (buildGraph samePackage symbols files).hasEdge source target = true) ∧
    ((∀ f, some f ∈ files → ∀ t ∈ f.types, symbols.contains t.fullName = true) →
      (buildGraph samePackage symbols files).dependencies.keys = symbols.names ∧
      (buildGraph samePackage symbols files).dependencies.contains = symbols.contains) ∧
    (∀ others, Reordered files others →
      buildGraph samePackage symbols others = buildGraph samePackage symbols files) := by
  have describes := buildGraphDescribes samePackage symbols files
  refine ⟨fun a b => hasEdgeIff.trans (describes.targets a b), fun a b => ?_, fun declared => ?_,
    fun others reordered => ?_⟩
  · rw [describes.sources, hasEdgeIff, describes.targets]
  · have known := usersDeclared samePackage declared
    refine ⟨eqOfIncreasing id (NameMap.keysIncreasing _) (NameMap.keysIncreasing _) fun name => ?_,
      funext fun name => Bool.eq_iff_iff.mpr (known name)⟩
    rw [NameMap.memKeys, SymbolTable.memNames]
    exact known name
  · have others := buildGraphDescribes samePackage symbols others
    exact (others.congr (fun _ => Iff.rfl) (reorderedUses reordered)).unique describes

theorem buildGraphExactFailedFile :
    let declared (name : String) : TypeInfo := { (default : TypeInfo) with fullName := name }
    let symbols := SymbolTable.empty.insertAll [declared "p.A", declared "p.B"]
    let first : FileFacts := { FileFacts.empty with
      package := "p", types := [declared "p.A"], usedTypes := .ofList ["A", "Y"],
      imports := [⟨"x.Y", false, false⟩, ⟨"p.B", false, false⟩, ⟨"p", false, true⟩] }
    let second : FileFacts := { FileFacts.empty with package := "p", types := [declared "p.B"] }
    (buildGraph true symbols [some first, none, some second]).dependencies.keys = ["p.A", "p.B"] ∧
    buildGraph true symbols
        [some second, some { first with imports := first.imports.reverse }, none] =
      buildGraph true symbols [some first, none, some second] := by
  intro declared symbols first second
  obtain ⟨_, _, keys, order⟩ := buildGraphExact true symbols [some first, none, some second]
  have known : ∀ f, some f ∈ [some first, none, some second] → ∀ t ∈ f.types,
      symbols.contains t.fullName = true := by
    intro f mem t declares
    simp only [List.mem_cons, Option.some.injEq, reduceCtorEq, List.not_mem_nil, or_false,
      false_or] at mem
    rcases mem with rfl | rfl
    · rw [List.mem_singleton.mp declares]
      decide
    · rw [List.mem_singleton.mp declares]
      decide
  have reversed : ImportsReordered first { first with imports := first.imports.reverse } :=
    ⟨(List.reverse_perm _).symm, rfl⟩
  have unchanged : ImportsReordered second second := ⟨.refl _, rfl⟩
  have moved : [some first, none, some second].Perm [some second, some first, none] :=
    @List.perm_append_comm _ [some first, none] [some second]
  exact ⟨(keys known).1.trans (by decide), order _ ⟨_, moved,
    .cons (.some unchanged) (.cons (.some reversed) (.cons .none .nil))⟩⟩

end JavaAudit
