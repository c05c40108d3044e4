import JavaAudit.Detect
import JavaAudit.Proofs.Declarations
import JavaAudit.Proofs.Graph.Edges

/-! Which types of a project are reported as unused. All types of a file use whatever the file
refers to, so a type is unused when no file that declares another type refers to it. -/
namespace JavaAudit.Detect

structure NeedsUser (suffixes : List String) (t : TypeInfo) : Prop where
  isPublic : t.visibility = .isPublic
  kind : t.kind ≠ .interface ∧ t.kind ≠ .annotationType
  outermost : t.nested = false
  ordinary : ∀ suffix ∈ suffixes, suffix ≠ "" → ¬ suffix.toList <:+ t.simpleName.toList

theorem needsUserIff {suffixes : List String} {t : TypeInfo} :
    needsUser suffixes t = true ↔ NeedsUser suffixes t := by
  have kinds : t.kind.isInterface = false ↔ t.kind ≠ .interface ∧ t.kind ≠ .annotationType := by
    cases t.kind <;> simp [TypeKind.isInterface]
  have named : isEntryPoint suffixes t = false ↔
      ∀ suffix ∈ suffixes, suffix ≠ "" → ¬ suffix.toList <:+ t.simpleName.toList := by
    simp [isEntryPoint]
  simp only [needsUser, Bool.and_eq_true, beq_iff_eq, Bool.not_eq_true', kinds, named]
  constructor
  · rintro ⟨⟨⟨isPublic, kind⟩, outermost⟩, ordinary⟩
    exact ⟨isPublic, kind, outermost, ordinary⟩
  · rintro ⟨isPublic, kind, outermost, ordinary⟩
    exact ⟨⟨⟨isPublic, kind⟩, outermost⟩, ordinary⟩

instance (suffixes : List String) (t : TypeInfo) : Decidable (NeedsUser suffixes t) :=
  decidable_of_iff _ needsUserIff

def References (f : FileFacts) (name : String) : Prop :=
  (∃ i ∈ f.imports, i.isWildcard = false ∧ i.path = name) ∨
    ∃ used ∈ f.usedTypes, qualify f.package used = name

instance (f : FileFacts) (name : String) : Decidable (References f name) :=
  inferInstanceAs (Decidable ((∃ i ∈ f.imports, _) ∨ ∃ used ∈ f.usedTypes.toList, _))

theorem mentionsIff {symbols : SymbolTable} {f : FileFacts} {name : String}
    (known : symbols.contains name = true) : Mentions true symbols f name ↔ References f name := by
  simp [Mentions, References, known]

theorem usersEmptyIff {registered : String → Prop} {uses : String → String → Prop}
    {g : DependencyGraph} (describes : Describes registered uses g) (name : String) :
    (g.usersOf name).isEmpty = true ↔ ∀ user, user ≠ name → ¬ uses user name := by
  simp only [DependencyGraph.usersOf, List.isEmpty_iff, List.filter_eq_nil_iff, ← NameSet.memDef,
    describes.sources, decide_eq_true_eq]
  exact forall_congr' fun user => imp_not_comm

section Project

variable (files : List (Option FileFacts))

def declaredTypes : List TypeInfo := (files.filterMap id).flatMap FileFacts.types

def projectTable : SymbolTable := SymbolTable.empty.insertAll (declaredTypes files)

def projectGraph : DependencyGraph := buildGraph true (projectTable files) files

def UsedElsewhere (name : String) : Prop :=
  ∃ f, some f ∈ files ∧ (∃ other ∈ f.types, other.fullName ≠ name) ∧ References f name

variable {files}

theorem usedByOwn {before after : List (Option FileFacts)} {own : FileFacts} {name : String}
    (others : ∀ f, some f ∈ before ++ after → ¬ References f name) :
    UsedElsewhere (before ++ some own :: after) name ↔
      (∃ other ∈ own.types, other.fullName ≠ name) ∧ References own name := by
  constructor
  · rintro ⟨f, mem, declares, referred⟩
    have place : some f ∈ before ++ after ∨ f = own := by
      simp only [List.mem_append, List.mem_cons, Option.some.injEq] at mem ⊢
      tauto
    rcases place with mem | rfl
    · exact absurd referred (others f mem)
    · exact ⟨declares, referred⟩
  · rintro ⟨declares, referred⟩
    exact ⟨own, by simp, declares, referred⟩

theorem projectUsersEmpty {name : String} (known : (projectTable files).contains name = true) :
    ((projectGraph files).usersOf name).isEmpty = true ↔ ¬ UsedElsewhere files name := by
  rw [projectGraph, usersEmptyIff (buildGraphDescribes true (projectTable files) files)]
  constructor
  · rintro unused ⟨f, mem, ⟨other, declared, different⟩, referred⟩
    exact unused other.fullName different
      ⟨f, mem, ⟨other, declared, rfl⟩, (mentionsIff known).mpr referred⟩
  · rintro unused user different ⟨f, mem, ⟨other, declared, rfl⟩, mentioned⟩
    exact unused ⟨f, mem, ⟨other, declared, different⟩, (mentionsIff known).mp mentioned⟩

end Project

def unusedTypes (suffixes : List String) (symbols : SymbolTable) (g : DependencyGraph) :
    List (String × TypeInfo) :=
  symbols.types.toList.filter fun (name, t) => needsUser suffixes t && (g.usersOf name).isEmpty

theorem unusedIssues (suffixes : List String) (symbols : SymbolTable) (g : DependencyGraph) :
    unused suffixes symbols g =
      (unusedTypes suffixes symbols g).map fun entry => unusedIssue entry.2 :=
  rfl

theorem memUnusedTypes {suffixes : List String} {files : List (Option FileFacts)} {name : String}
    {t : TypeInfo} : (name, t) ∈ unusedTypes suffixes (projectTable files) (projectGraph files) ↔
      lastDeclaration (declaredTypes files) name = some t ∧ NeedsUser suffixes t ∧
        ¬ UsedElsewhere files name := by
  have entry : (name, t) ∈ (projectTable files).types.toList ↔
      lastDeclaration (declaredTypes files) name = some t := by
    rw [← NameMap.memOfGet, ← SymbolTable.getDeclared]
    rfl
  simp only [unusedTypes, List.mem_filter, entry, Bool.and_eq_true, needsUserIff]
  refine and_congr_right fun last => and_congr_right fun _ => projectUsersEmpty ?_
  -- A declared type is known, so an import of it counts whether or not its simple name is used.
  exact SymbolTable.containsDeclared.mpr ⟨t, lastDeclared last⟩

theorem unusedExact (suffixes : List String) (files : List (Option FileFacts)) :
    ∃ reported : List (String × TypeInfo),
      unused suffixes (projectTable files) (projectGraph files) =
        reported.map (fun entry => unusedIssue entry.2) ∧
      reported.Pairwise (fun a b => a.1 < b.1) ∧
      (∀ entry ∈ reported, (unusedIssue entry.2).code = .unusedPublicClass ∧
        (unusedIssue entry.2).location = entry.2.file) ∧
      ∀ name t, (name, t) ∈ reported ↔
        lastDeclaration (declaredTypes files) name = some t ∧
        t.visibility = .isPublic ∧ t.kind ≠ .interface ∧ t.kind ≠ .annotationType ∧
        t.nested = false ∧
        (∀ suffix ∈ suffixes, suffix ≠ "" → ¬ suffix.toList <:+ t.simpleName.toList) ∧
        ∀ f, some f ∈ files → (∃ other ∈ f.types, other.fullName ≠ name) →
          ¬ ((∃ i ∈ f.imports, i.isWildcard = false ∧ i.path = name) ∨
            ∃ used ∈ f.usedTypes, qualify f.package used = name) := by
  refine ⟨unusedTypes suffixes (projectTable files) (projectGraph files), unusedIssues _ _ _,
    (projectTable files).types.increasing.filter _, fun _ _ => ⟨rfl, rfl⟩, fun name t => ?_⟩
  rw [memUnusedTypes]
  constructor
  · rintro ⟨last, ⟨isPublic, kind, outermost, ordinary⟩, unused⟩
    refine ⟨last, isPublic, kind.1, kind.2, outermost, ordinary, fun f mem declares referred => ?_⟩
    exact unused ⟨f, mem, declares, referred⟩
  · rintro ⟨last, isPublic, plain, real, outermost, ordinary, unused⟩
    refine ⟨last, ⟨isPublic, ⟨plain, real⟩, outermost, ordinary⟩, ?_⟩
    rintro ⟨f, mem, declares, referred⟩
    exact unused f mem declares referred

theorem unusedExactDuplicate :
    let declared (name simple file : String) : TypeInfo := { (default : TypeInfo) with
      fullName := name, simpleName := simple, package := "p", file := file }
    let first : FileFacts := { FileFacts.empty with
      package := "p", types := [declared "p.A" "A" "one/A.java"] }
    let second : FileFacts := { FileFacts.empty with
      package := "p", usedTypes := .ofList ["B"],
      types := [declared "p.A" "A" "two/A.java", declared "p.B" "B" "two/A.java"] }
    let files := [some first, none, some second]
    ∃ reported : List (String × TypeInfo),
      unused ["Test"] (projectTable files) (projectGraph files) =
        reported.map (fun entry => unusedIssue entry.2) ∧
      ("p.A", declared "p.A" "A" "two/A.java") ∈ reported ∧
      ("p.B", declared "p.B" "B" "two/A.java") ∉ reported := by
  intro declared first second files
  obtain ⟨reported, same, _, _, exactly⟩ := unusedExact ["Test"] files
  refine ⟨reported, same, (exactly _ _).mpr ?_, fun mem => ?_⟩
  · refine ⟨by decide, by decide, by decide, by decide, by decide, by decide, fun f mem _ => ?_⟩
    simp only [files, List.mem_cons, Option.some.injEq, reduceCtorEq, List.not_mem_nil, or_false,
      false_or] at mem
    rcases mem with rfl | rfl
    · exact (by decide : ¬ References first "p.A")
    · exact (by decide : ¬ References second "p.A")
  · obtain ⟨_, _, _, _, _, _, unreferenced⟩ := (exactly _ _).mp mem
    exact unreferenced second (by simp [files]) (by decide)
      (by decide : References second "p.B")

theorem unusedProjectIssue (c : DetectorConfig) {symbols : SymbolTable} {g : DependencyGraph}
    {issue : ProjectIssue} (mem : issue ∈ unused c.entryPointSuffixes symbols g) :
    issue ∈ projectIssues c symbols g :=
  List.mem_flatMap.mpr ⟨.unusedPublicType, List.mem_cons_self, mem⟩

theorem ownFileUnusedIff (c : DetectorConfig) {before after : List (Option FileFacts)}
    {own : FileFacts} {t : TypeInfo}
    (winning : lastDeclaration (declaredTypes (before ++ some own :: after)) t.fullName = some t)
    (needsUser : NeedsUser c.entryPointSuffixes t)
    (others : ∀ f, some f ∈ before ++ after → ¬ References f t.fullName) :
    let table := projectTable (before ++ some own :: after)
    let graph := projectGraph (before ++ some own :: after)
    ((t.fullName, t) ∈ unusedTypes c.entryPointSuffixes table graph ↔
      ((∀ other ∈ own.types, other.fullName = t.fullName) ∨ ¬ References own t.fullName)) ∧
    ((∀ other ∈ own.types, other.fullName = t.fullName) ∨ ¬ References own t.fullName →
      unusedIssue t ∈ projectIssues c table graph) := by
  intro table graph
  have reported : (t.fullName, t) ∈ unusedTypes c.entryPointSuffixes table graph ↔
      ((∀ other ∈ own.types, other.fullName = t.fullName) ∨ ¬ References own t.fullName) := by
    -- Only the own file can refer to the type, and then all its types do.
    rw [memUnusedTypes, usedByOwn others, not_and_or]
    simp [winning, needsUser]
  refine ⟨reported, fun alone => unusedProjectIssue c ?_⟩
  rw [unusedIssues]
  exact List.mem_map.mpr ⟨_, reported.mpr alone, rfl⟩

theorem ownFileUnusedAlone :
    let node : TypeInfo := { (default : TypeInfo) with
      fullName := "app.Node", simpleName := "Node", package := "app", file := "app/Node.java" }
    let tool : TypeInfo := { (default : TypeInfo) with
      fullName := "lib.Tool", simpleName := "Tool", package := "lib", file := "lib/Tool.java" }
    let own : FileFacts := { FileFacts.empty with
      package := "app", types := [node], usedTypes := .ofList ["Node"] }
    let other : FileFacts := { FileFacts.empty with
      package := "lib", types := [tool], usedTypes := .ofList ["Node", "Tool"],
      imports := [⟨"app", false, true⟩] }
    References own "app.Node" ∧
    unusedIssue node ∈
      projectIssues {} (projectTable [some own, some other]) (projectGraph [some own, some other]) := by
  intro node tool own other
  have others : ∀ f, some f ∈ [] ++ [some other] → ¬ References f node.fullName := by
    intro f mem
    simp only [List.nil_append, List.mem_singleton, Option.some.injEq] at mem
    subst mem
    decide
  have unused := @ownFileUnusedIff {} [] [some other] own node (by decide) (by decide) others
  exact ⟨by decide, unused.2 (.inl (by decide))⟩

/-- A nested type counts as a user of the type around it, though it never mentions it. -/
theorem nestedTypeHidesSelfReference :
    let node : TypeInfo := { (default : TypeInfo) with
      fullName := "app.Node", simpleName := "Node", package := "app", file := "app/Node.java"
      visibility := .isPublic, kind := .plainClass, nested := false }
    let leaf : TypeInfo := { (default : TypeInfo) with
      fullName := "app.Node.Leaf", simpleName := "Leaf", package := "app", file := "app/Node.java"
      visibility := .isRestricted, kind := .plainClass, nested := true }
    let own : FileFacts := { FileFacts.empty with
      package := "app", types := [node, leaf], usedTypes := .ofList ["Node"] }
    lastDeclaration (declaredTypes [some own]) "app.Node" = some node ∧
    NeedsUser ({} : DetectorConfig).entryPointSuffixes node ∧
    (∀ f, some f ∈ [some own] → f ≠ own → ¬ References f "app.Node") ∧
    ∀ issue ∈ projectIssues {} (projectTable [some own]) (projectGraph [some own]),
      issue.code ≠ .unusedPublicClass := by
  intro node leaf own
  refine ⟨by decide, by decide, fun f mem different => ?_, by decide⟩
  exact absurd (Option.some.inj (List.mem_singleton.mp mem)) different

end JavaAudit.Detect
