import JavaAudit.Walk
import JavaAudit.Proofs.Paths
import Mathlib.Data.List.Permutation
import Mathlib.Data.String.Basic

/-! Which files a walk finds. Directories are closed on the way down and files are looked at one by
one; a file is found exactly if its whole path is admitted. -/
namespace JavaAudit

namespace Entry

inductive Plain : Entry → Prop where
  | file (bytes : Text.Bytes) : Plain (.file bytes)
  | directory {children : List (String × Entry)} (distinct : (children.map Prod.fst).Nodup)
      (each : ∀ c ∈ children, Plain c.2) : Plain (.directory children)

theorem childIff {children : List (String × Entry)} (distinct : (children.map Prod.fst).Nodup)
    {name : String} {e : Entry} :
    (directory children).child? name = some e ↔ (name, e) ∈ children := by
  simp only [child?]
  induction children with
  | nil => simp
  | cons c rest ih =>
    obtain ⟨other, f⟩ := c
    obtain ⟨fresh, distinct⟩ := List.nodup_cons.mp distinct
    by_cases same : other = name
    · subst same
      have absent : (other, e) ∉ rest := fun mem => fresh (List.mem_map.mpr ⟨_, mem, rfl⟩)
      simp [absent, eq_comm]
    · simp [same, Ne.symm same, ih distinct]

theorem fileBelowFile {bytes found : Text.Bytes} {path : List String} :
    (Entry.file bytes).at? path = some (.file found) ↔ path = [] ∧ bytes = found := by
  cases path with
  | nil => simp [at?]
  | cons name rest => simp [at?, child?]

theorem fileBelowDirectory {children : List (String × Entry)}
    (distinct : (children.map Prod.fst).Nodup) {found : Text.Bytes} {path : List String} :
    (directory children).at? path = some (.file found) ↔
      ∃ name e rest, path = name :: rest ∧ (name, e) ∈ children ∧
        e.at? rest = some (.file found) := by
  cases path with
  | nil => simp [at?]
  | cons name rest =>
    simp only [at?, bind, Option.bind_eq_some_iff, childIff distinct, List.cons.injEq]
    constructor
    · rintro ⟨e, mem, below⟩
      exact ⟨name, e, rest, ⟨rfl, rfl⟩, mem, below⟩
    · rintro ⟨_, e, _, ⟨rfl, rfl⟩, mem, below⟩
      exact ⟨e, mem, below⟩

theorem notHere {children : List (String × Entry)} {bytes : Text.Bytes} {path : List String}
    (found : (directory children).at? path = some (.file bytes)) : path ≠ [] := by
  intro here
  rw [here] at found
  simp [at?] at found

end Entry

namespace WalkRules

/-- What a walk from the directory at `parent` asks of the names of a file below it. -/
structure Admits (r : WalkRules) (parent path : List String) : Prop where
  source : ∃ above name, path = above ++ [name] ∧ isSource name = true
  shallow : r.reaches (parent.length + path.length) = true
  kept : (r.inTestDir (parent ++ path) || r.leftOut (Path.ofNames (parent ++ path))) = false
  opened : ∀ above name below, path = above ++ name :: below → below ≠ [] →
    r.prunes (parent ++ above ++ [name]) name = false

theorem reachesLess {r : WalkRules} {shallow deep : Nat} (le : shallow ≤ deep)
    (reached : r.reaches deep = true) : r.reaches shallow = true := by
  unfold reaches at *
  cases bound : r.maxDepth with
  | none => rfl
  | some depth =>
    simp only [bound, Option.all_some, decide_eq_true_eq] at reached ⊢
    omega

theorem admitsName {r : WalkRules} {parent : List String} {name : String} :
    r.Admits parent [name] ↔
      r.reaches (parent.length + 1) = true ∧ r.takes (parent ++ [name]) name = true := by
  constructor
  · rintro ⟨⟨above, own, whole, source⟩, shallow, kept, _⟩
    have same : own = name := by
      have last := congrArg List.getLast? whole
      simpa using last.symm
    subst same
    exact ⟨shallow, by simp [takes, source, kept]⟩
  · rintro ⟨shallow, taken⟩
    simp only [takes, Bool.and_eq_true, Bool.not_eq_true'] at taken
    refine ⟨⟨[], name, rfl, taken.1⟩, shallow, taken.2, fun above own below whole filled => ?_⟩
    have size := congrArg List.length whole
    simp only [List.length_append, List.length_cons, List.length_nil] at size
    exact absurd (List.length_eq_zero_iff.mp (by omega)) filled

theorem admitsBelow {r : WalkRules} {parent rest : List String} {name : String}
    (filled : rest ≠ []) : r.Admits parent (name :: rest) ↔
      r.reaches (parent.length + 1) = true ∧ r.prunes (parent ++ [name]) name = false ∧
        r.Admits (parent ++ [name]) rest := by
  have joined : parent ++ name :: rest = (parent ++ [name]) ++ rest := by simp
  have depth : parent.length + (name :: rest).length = (parent ++ [name]).length + rest.length := by
    simp
    omega
  constructor
  · rintro ⟨⟨above, own, whole, source⟩, shallow, kept, opened⟩
    refine ⟨reachesLess (by simp) shallow, by simpa using opened [] name rest rfl filled, ?_⟩
    refine ⟨?_, depth ▸ shallow, joined ▸ kept, fun above' own' below split more => ?_⟩
    · cases above with
      | nil => simp_all
      | cons first above => exact ⟨above, own, (List.cons.inj whole).2, source⟩
    · have inner := opened (name :: above') own' below (by rw [split]; rfl) more
      simpa using inner
  · rintro ⟨_, opens, ⟨above, own, whole, source⟩, shallow, kept, opened⟩
    refine ⟨⟨name :: above, own, by rw [whole]; rfl, source⟩, depth ▸ shallow, joined ▸ kept,
      fun above' own' below split more => ?_⟩
    cases above' with
    | nil =>
      obtain ⟨rfl, rfl⟩ := List.cons.inj split
      simpa using opens
    | cons first above' =>
      obtain ⟨rfl, tail⟩ := List.cons.inj split
      simpa using opened above' own' below tail more

end WalkRules

section Descent

variable {r : WalkRules} {rule : Listing.LinkRule}

theorem childSightingsEq (above : List Listing.Stage) (stage : Listing.Stage) (parent : List String)
    (children : List (String × Entry)) :
    childSightings r parent (Listing.ofChildren rule above stage children) =
      children.flatMap fun c => if r.reaches (parent.length + 1) then
        sightings r (parent ++ [c.1]) c.1
          (Listing.ofEntry rule above ⟨stage.shown ++ [c.1], stage.actual ++ [c.1]⟩ c.2)
        else [] := by
  induction children with
  | nil => rfl
  | cons c rest ih =>
    simp only [Listing.ofChildren, childSightings, List.flatMap_cons, ih]

def Finds (r : WalkRules) (e : Entry) (parent : List String) (name : String)
    (x : Sighting) : Prop :=
  ∃ rest bytes, x = .source (parent ++ name :: rest) ∧ e.at? rest = some (.file bytes) ∧
    r.Admits parent (name :: rest)

theorem memChildSightings {children : List (String × Entry)}
    (distinct : (children.map Prod.fst).Nodup) {above : List Listing.Stage} {stage : Listing.Stage}
    {parent : List String} {x : Sighting}
    (each : ∀ c ∈ children, ∀ here,
      r.reaches (parent.length + 1) = true ∧
        x ∈ sightings r (parent ++ [c.1]) c.1 (Listing.ofEntry rule above here c.2) ↔
      Finds r c.2 parent c.1 x) :
    x ∈ childSightings r parent (Listing.ofChildren rule above stage children) ↔
      ∃ path bytes, x = .source (parent ++ path) ∧
        (Entry.directory children).at? path = some (.file bytes) ∧ r.Admits parent path := by
  simp only [childSightingsEq, List.mem_flatMap, List.mem_ite_nil_right,
    Entry.fileBelowDirectory distinct]
  constructor
  · rintro ⟨c, mem, seen⟩
    obtain ⟨rest, bytes, same, found, admitted⟩ := (each c mem _).mp seen
    exact ⟨c.1 :: rest, bytes, same, ⟨c.1, c.2, rest, rfl, mem, found⟩, admitted⟩
  · rintro ⟨_, bytes, same, ⟨name, e, rest, rfl, mem, found⟩, admitted⟩
    exact ⟨(name, e), mem, (each (name, e) mem _).mpr ⟨rest, bytes, same, found, admitted⟩⟩

theorem memSightings {e : Entry} (plain : e.Plain) {above : List Listing.Stage}
    {here : Listing.Stage} {parent : List String} {name : String} {x : Sighting} :
    r.reaches (parent.length + 1) = true ∧
      x ∈ sightings r (parent ++ [name]) name (Listing.ofEntry rule above here e) ↔
    Finds r e parent name x := by
  induction plain generalizing above here parent name with
  | file bytes =>
    simp only [Listing.ofEntry, sightings, List.mem_ite_nil_right, List.mem_singleton, Finds,
      Entry.fileBelowFile]
    constructor
    · rintro ⟨reached, taken, rfl⟩
      exact ⟨[], bytes, rfl, ⟨rfl, rfl⟩, WalkRules.admitsName.mpr ⟨reached, taken⟩⟩
    · rintro ⟨_, _, same, ⟨rfl, rfl⟩, admitted⟩
      obtain ⟨reached, taken⟩ := WalkRules.admitsName.mp admitted
      exact ⟨reached, taken, same⟩
  | @directory children distinct each ih =>
    have inner : ∀ {above stage}, x ∈ childSightings r (parent ++ [name])
        (Listing.ofChildren rule above stage children) ↔ _ :=
      memChildSightings distinct fun c mem here => ih c mem
    simp only [Listing.ofEntry, sightings, List.mem_ite_nil_left, inner, Finds]
    -- The directory is asked for its own name; what is asked of the names below is left to them.
    constructor
    · rintro ⟨reached, opened, path, bytes, same, found, admitted⟩
      have filled : path ≠ [] := Entry.notHere found
      exact ⟨path, bytes, by simpa using same, found,
        (WalkRules.admitsBelow filled).mpr ⟨reached, by simpa using opened, admitted⟩⟩
    · rintro ⟨path, bytes, same, found, admitted⟩
      have filled : path ≠ [] := Entry.notHere found
      obtain ⟨reached, opened, admitted⟩ := (WalkRules.admitsBelow filled).mp admitted
      exact ⟨reached, by simpa using opened, path, bytes, by simpa using same, found, admitted⟩

theorem childSightingsDistinct {children : List (String × Entry)}
    (distinct : (children.map Prod.fst).Nodup) (plain : ∀ c ∈ children, c.2.Plain)
    {above : List Listing.Stage} {stage : Listing.Stage} {parent : List String}
    (each : ∀ c ∈ children, ∀ here,
      (sightings r (parent ++ [c.1]) c.1 (Listing.ofEntry rule above here c.2)).Nodup) :
    (childSightings r parent (Listing.ofChildren rule above stage children)).Nodup := by
  rw [childSightingsEq, List.nodup_flatMap]
  constructor
  · intro c mem
    split
    · exact each c mem _
    · exact List.nodup_nil
  · refine (List.pairwise_map.mp distinct).imp_of_mem fun {c d} inC inD different => ?_
    -- What is found below two names goes through different names.
    intro x first second
    simp only [List.mem_ite_nil_right] at first second
    obtain ⟨_, _, same, _⟩ := (memSightings (plain c inC)).mp first
    obtain ⟨_, _, other, _⟩ := (memSightings (plain d inD)).mp second
    rw [same] at other
    have paths := List.append_cancel_left (Sighting.source.inj other)
    exact different (List.cons.inj paths).1

theorem sightingsDistinct {e : Entry} (plain : e.Plain) {above : List Listing.Stage}
    {here : Listing.Stage} {names : List String} {name : String} :
    (sightings r names name (Listing.ofEntry rule above here e)).Nodup := by
  induction plain generalizing above here names name with
  | file bytes =>
    simp only [Listing.ofEntry, sightings]
    split
    · exact List.nodup_singleton _
    · exact List.nodup_nil
  | directory distinct plain ih =>
    simp only [Listing.ofEntry, sightings]
    split
    · exact List.nodup_nil
    · exact childSightingsDistinct distinct plain fun c mem _ => ih c mem

theorem memRootSightings {children : List (String × Entry)}
    (plain : (Entry.directory children).Plain) {here : Listing.Stage} {x : Sighting} :
    x ∈ (Listing.ofEntry rule [] here (.directory children)).sightings r ↔
      ∃ path bytes, x = .source path ∧
        (Entry.directory children).at? path = some (.file bytes) ∧ r.Admits [] path := by
  cases plain with
  | directory distinct each =>
    exact memChildSightings distinct fun c mem _ => memSightings (each c mem)

theorem rootSightingsDistinct {children : List (String × Entry)}
    (plain : (Entry.directory children).Plain) {here : Listing.Stage} :
    ((Listing.ofEntry rule [] here (.directory children)).sightings r).Nodup := by
  cases plain with
  | directory distinct each =>
    exact childSightingsDistinct distinct each fun c mem _ => sightingsDistinct (each c mem)

end Descent

theorem Listing.memFiles {r : WalkRules} {root : String} {l : Listing} {path : List String} :
    path ∈ (l.walk r root).files ↔ .source path ∈ l.sightings r := by
  simp only [walk, sortPaths, List.mem_mergeSort, List.mem_filterMap]
  constructor
  · rintro ⟨x, mem, same⟩
    cases x <;> simp_all [Sighting.source?]
  · intro mem
    exact ⟨_, mem, rfl⟩

theorem Listing.filesDistinct {r : WalkRules} {root : String} {l : Listing}
    (distinct : (l.sightings r).Nodup) : (l.walk r root).files.Nodup := by
  have sources : ((l.sightings r).filterMap Sighting.source?).Nodup := by
    refine distinct.filterMap fun x y path first second => ?_
    cases x <;> cases y <;> simp_all [Sighting.source?]
  exact (List.mergeSort_perm _ _).nodup_iff.mpr sources

theorem Listing.filesOrdered {r : WalkRules} {root : String} {l : Listing}
    (distinct : (l.sightings r).Nodup) :
    (l.walk r root).files.Pairwise fun a b => a.lex b = true := by
  have sorted : (l.walk r root).files.Pairwise fun a b => Path.precedes a b = true := by
    apply List.pairwise_mergeSort
    · intro a b c left right
      exact Path.precedesTrans left right
    · intro a b
      exact Path.precedesTotal a b
  have different : (l.walk r root).files.Nodup := filesDistinct distinct
  exact (sorted.and different).imp fun ⟨before, apart⟩ => Path.lexOfPrecedes before apart

theorem Listing.noneSkipped {r : WalkRules} {root : String} {l : Listing}
    (sources : ∀ x ∈ l.sightings r, ∃ path, x = .source path) :
    (l.walk r root).skipped = [] := by
  have none : (l.sightings r).filter (·.source?.isNone) = [] := by
    refine List.filter_eq_nil_iff.mpr fun x mem => ?_
    obtain ⟨path, rfl⟩ := sources x mem
    simp [Sighting.source?]
  simp [walk, none]

theorem opensIff {r : WalkRules} {names : List String} {name : String} :
    r.prunes names name = false ↔ name.toList.head? ≠ some '.' ∧ name ∉ r.excludedDirs ∧
      name ∉ r.testDirNames ∧ r.leftOut (Path.ofNames names) = false := by
  simp [WalkRules.prunes, WalkRules.isHidden, and_assoc]

theorem sourceIff {name : String} :
    WalkRules.isSource name = true ↔ ∃ stem, stem ≠ "" ∧ name = stem ++ ".java" := by
  have java := @Path.extensionIff name "java" (by simp) (by simp)
  simp only [WalkRules.isSource, decide_eq_true_eq, java, String.append_assoc]
  rfl

theorem reachesIff {r : WalkRules} {depth : Nat} :
    r.reaches depth = true ↔ ∀ most, r.maxDepth = some most → depth ≤ most := by
  unfold WalkRules.reaches
  cases r.maxDepth <;> simp

theorem outsideTestDirs {r : WalkRules} {path : List String}
    (opened : ∀ above name below, path = above ++ name :: below → below ≠ [] →
      name ∉ r.testDirNames) : r.inTestDir path = false := by
  refine List.any_eq_false.mpr fun name mem => ?_
  obtain ⟨above, below, whole⟩ := List.append_of_mem mem
  have filled : path ≠ [] := by
    rintro rfl
    contradiction
  have parts : path = above ++ name :: (below ++ [path.getLast filled]) := by
    rw [← List.cons_append, ← List.append_assoc, ← whole, List.dropLast_concat_getLast]
  simpa using opened above name _ parts (by simp)

theorem walkExact (t : FileTree) (s : Settings) (r : WalkRules) {names : List String}
    {children : List (String × Entry)}
    (found : t.resolve s.scanPath = .found names (.directory children))
    (plain : (Entry.directory children).Plain) :
    ∃ l, Listing.at? t s.followLinks s.scanPath = some l ∧
      (s.walkRules = .ok r → walk t s = .ok (l.walk r s.scanPath)) ∧
      (l.walk r s.scanPath).skipped = [] ∧
      (l.walk r s.scanPath).files.Nodup ∧
      (l.walk r s.scanPath).files.Pairwise (fun a b => a.lex b = true) ∧
      ∀ path, path ∈ (l.walk r s.scanPath).files ↔
        (∃ bytes, (Entry.directory children).at? path = some (.file bytes)) ∧
        (∃ above stem, stem ≠ "" ∧ path = above ++ [stem ++ ".java"]) ∧
        (∀ depth, r.maxDepth = some depth → path.length ≤ depth) ∧
        r.leftOut (Path.ofNames path) = false ∧
        ∀ above name below, path = above ++ name :: below → below ≠ [] →
          name.toList.head? ≠ some '.' ∧ name ∉ r.excludedDirs ∧ name ∉ r.testDirNames ∧
            r.leftOut (Path.ofNames (above ++ [name])) = false := by
  let rule := if s.followLinks then Listing.following t (Listing.entrySize t.root + 1)
    else Listing.ignoring
  let l := Listing.ofEntry rule [] ⟨[], names⟩ (.directory children)
  have listed : Listing.at? t s.followLinks s.scanPath = some l := by
    simp only [Listing.at?, found]
    rfl
  have distinct : (l.sightings r).Nodup := rootSightingsDistinct plain
  refine ⟨l, listed, fun rules => ?_, Listing.noneSkipped fun x mem => ?_,
    Listing.filesDistinct distinct, Listing.filesOrdered distinct, fun path => ?_⟩
  · unfold walk
    rw [rules, listed]
    rfl
  · obtain ⟨path, _, same, _⟩ := (memRootSightings plain).mp mem
    exact ⟨path, same⟩
  · rw [Listing.memFiles, memRootSightings plain]
    constructor
    · rintro ⟨_, bytes, same, file, ⟨above, name, whole, source⟩, shallow, kept, opened⟩
      cases same
      obtain ⟨stem, filled, rfl⟩ := sourceIff.mp source
      obtain ⟨_, kept⟩ := Bool.or_eq_false_iff.mp kept
      refine ⟨⟨bytes, file⟩, ⟨above, stem, filled, whole⟩, ?_, kept, ?_⟩
      · intro depth bound
        simpa using reachesIff.mp shallow depth bound
      · intro above name below parts more
        exact opensIff.mp (opened above name below parts more)
    · rintro ⟨⟨bytes, file⟩, ⟨above, stem, filled, whole⟩, shallow, kept, opened⟩
      have outside : r.inTestDir path = false :=
        outsideTestDirs fun above name below parts more =>
          (opened above name below parts more).2.2.1
      refine ⟨path, bytes, rfl, file, ⟨above, _, whole, sourceIff.mpr ⟨stem, filled, rfl⟩⟩, ?_,
        Bool.or_eq_false_iff.mpr ⟨outside, kept⟩, ?_⟩
      · refine reachesIff.mpr fun depth bound => ?_
        simpa using shallow depth bound
      · intro above name below parts more
        exact opensIff.mpr (opened above name below parts more)

theorem walkExactClosedDirectories :
    let source : Entry := .directory [("D.java", .file []), ("D.txt", .file [])]
    let children : List (String × Entry) :=
      [("pkg", source), ("build", source), (".old", source), ("test", source), ("gen", source)]
    let t : FileTree := ⟨.directory [("proj", .directory children)], []⟩
    let s : Settings := { scanPath := "proj", excludePatterns := ["gen"], maxDepth := some 2 }
    let r : WalkRules := ⟨s.excludedDirs, s.testDirNames,
      matchesAny [⟨[.only 'g', .only 'e', .only 'n']⟩], s.maxDepth⟩
    (Entry.directory children).Plain ∧ s.walkRules = .ok r ∧
    ∃ outcome, walk t s = .ok outcome ∧ ["pkg", "D.java"] ∈ outcome.files ∧
      ["pkg", "D.txt"] ∉ outcome.files ∧
      ∀ name ∈ ["build", ".old", "test", "gen"], [name, "D.java"] ∉ outcome.files := by
  intro source children t s r
  have leaf : source.Plain := by
    refine .directory (by decide) fun c mem => ?_
    simp only [List.mem_cons, List.not_mem_nil, or_false] at mem
    rcases mem with rfl | rfl <;> exact .file []
  have plain : (Entry.directory children).Plain := by
    refine .directory (by decide) fun c mem => ?_
    simp only [children, List.mem_cons, List.not_mem_nil, or_false] at mem
    rcases mem with rfl | rfl | rfl | rfl | rfl <;> exact leaf
  have rules : s.walkRules = .ok r := rfl
  have found : t.resolve s.scanPath = .found ["proj"] (.directory children) := by
    change t.resolve "proj" = _
    have pieces : Path.pieces "proj" = ["proj"] := by decide
    unfold FileTree.resolve
    rw [pieces]
    rfl
  -- The matcher recurses by a measure, so its equations are rewritten with, not evaluated.
  obtain ⟨closed, entered, kept⟩ : r.leftOut (Path.ofNames ([] ++ ["gen"])) = true ∧
      r.leftOut (Path.ofNames ([] ++ ["pkg"])) = false ∧
      r.leftOut (Path.ofNames ["pkg", "D.java"]) = false := by
    simp [r, matchesAny, Path.ofNames, Glob.accepts, Glob.verdict, Glob.Piece.accepts]
  obtain ⟨l, _, walked, _, _, _, exactly⟩ := walkExact t s r found plain
  refine ⟨plain, rules, _, walked rules, (exactly _).mpr ?_, fun mem => ?_,
    fun name among mem => ?_⟩
  · refine ⟨⟨[], rfl⟩, ⟨["pkg"], "D", by decide, rfl⟩, fun depth bound => ?_, kept, ?_⟩
    · cases bound
      decide
    · intro above name below parts more
      cases above with
      | nil =>
        obtain ⟨rfl, _⟩ := List.cons.inj parts
        exact ⟨by decide, by decide, by decide, entered⟩
      | cons first above =>
        have size := congrArg List.length parts
        have filled := List.length_pos_iff.mpr more
        simp only [List.length_append, List.length_cons, List.length_nil] at size
        omega
  · obtain ⟨_, ⟨above, stem, _, whole⟩, _⟩ := (exactly _).mp mem
    have name : "D.txt" = stem ++ ".java" := by simpa using congrArg List.getLast? whole
    simpa using congrArg (·.toList.getLast?) name
  · obtain ⟨_, _, _, _, opened⟩ := (exactly _).mp mem
    obtain ⟨visible, ordinary, untested, admitted⟩ := opened [] name ["D.java"] rfl (by simp)
    simp only [List.mem_cons, List.not_mem_nil, or_false] at among
    rcases among with rfl | rfl | rfl | rfl
    · exact ordinary (by decide)
    · exact visible (by decide)
    · exact untested (by decide)
    · rw [closed] at admitted
      contradiction

end JavaAudit
