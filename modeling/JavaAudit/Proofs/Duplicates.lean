import JavaAudit.Proofs.Assembly
import JavaAudit.Proofs.Metrics

/-! The notes of a symbol table. The map and the notes tell one history: the map holds the last
declaration of each name, and between two declarations of a name that follow each other there is one
note. So every declaration is counted once, as a name or as a note. -/
namespace JavaAudit

def notesBetween (name : String) (own : List TypeInfo) : List DuplicateType :=
  own.zipWith (fun old new => ⟨name, old.file, new.file⟩) own.tail

theorem notesConcat (name : String) (own : List TypeInfo) (t : TypeInfo) :
    notesBetween name (own ++ [t]) =
      notesBetween name own ++ own.getLast?.toList.map fun old => ⟨name, old.file, t.file⟩ := by
  induction own with
  | nil => rfl
  | cons first own ih =>
    cases own with
    | nil => rfl
    | cons second own =>
      rw [List.getLast?_cons_cons]
      exact congrArg (⟨name, first.file, second.file⟩ :: ·) ih

theorem notesHead {name : String} {own : List TypeInfo} {note : DuplicateType}
    (first : (notesBetween name own).head? = some note) :
    own.head?.map TypeInfo.file = some note.replacedFile := by
  match own with
  | [] | [_] => cases first
  | a :: b :: rest =>
    cases first
    rfl

theorem notesLast {name : String} {own : List TypeInfo} {note : DuplicateType}
    (last : (notesBetween name own).getLast? = some note) :
    own.getLast?.map TypeInfo.file = some note.winningFile := by
  cases own using List.reverseRecOn with
  | nil => cases last
  | append_singleton own t =>
    rw [notesConcat] at last
    cases before : own.getLast? with
    | none =>
      rw [List.getLast?_eq_none_iff.mp before] at last
      cases last
    | some old =>
      simp only [before, Option.toList_some, List.map_cons, List.map_nil, List.getLast?_concat] at last
      cases last
      simp

theorem notesLinked (name : String) (own : List TypeInfo) :
    (notesBetween name own).IsChain fun a b => a.winningFile = b.replacedFile := by
  induction own with
  | nil => exact .nil
  | cons first own ih =>
    match own, ih with
    | [], _ => exact .nil
    | [second], _ => exact .singleton _
    | second :: third :: rest, ih => exact List.isChain_cons_cons.mpr ⟨rfl, ih⟩

namespace SymbolTable

theorem insertConcat (s : SymbolTable) (ts : List TypeInfo) (t : TypeInfo) :
    s.insertAll (ts ++ [t]) = (s.insertAll ts).insert t := by
  simp [insertAll]

theorem duplicatesConcat (ts : List TypeInfo) (t : TypeInfo) :
    (empty.insertAll (ts ++ [t])).duplicates = (empty.insertAll ts).duplicates ++
      (lastDeclaration ts t.fullName).toList.map fun old => ⟨t.fullName, old.file, t.file⟩ := by
  rw [insertConcat, insert, getDeclared]
  cases last : lastDeclaration ts t.fullName with
  | none => simp
  | some old => simp [(lastDeclared last).2]

theorem duplicatesOfName (ts : List TypeInfo) (name : String) :
    (empty.insertAll ts).duplicates.filter (fun d => d.fullName = name) =
      notesBetween name (ts.filter fun t => t.fullName = name) := by
  induction ts using List.reverseRecOn with
  | nil => rfl
  | append_singleton ts t ih =>
    rw [duplicatesConcat, List.filter_append, ih, List.filter_append]
    by_cases same : t.fullName = name
    · have own : [t].filter (fun t => t.fullName = name) = [t] := by simp [same]
      rw [own, notesConcat, same, lastDeclaration]
      simp
    · have other : [t].filter (fun t => t.fullName = name) = [] := by simp [same]
      rw [other, List.append_nil]
      simp [same]

theorem sizeDeclared (ts : List TypeInfo) :
    (empty.insertAll ts).size = (ts.map TypeInfo.fullName).dedup.length := by
  have distinct : (empty.insertAll ts).names.Nodup :=
    (NameMap.keysIncreasing _).imp String.ne_of_lt
  have perm : (empty.insertAll ts).names.Perm (ts.map TypeInfo.fullName).dedup := by
    refine (List.perm_ext_iff_of_nodup distinct (List.nodup_dedup _)).mpr fun name => ?_
    rw [memNames, containsDeclared, List.mem_dedup, List.mem_map]
  rw [← perm.length_eq, names, NameMap.keys, List.length_map]
  rfl

theorem insertsCounted (ts : List TypeInfo) :
    ts.length = (ts.map TypeInfo.fullName).dedup.length +
      (empty.insertAll ts).duplicates.length := by
  induction ts using List.reverseRecOn with
  | nil => rfl
  | append_singleton ts t ih =>
    have turned : ((ts ++ [t]).map TypeInfo.fullName).dedup.length =
        (t.fullName :: ts.map TypeInfo.fullName).dedup.length := by
      rw [List.map_append]
      exact (List.perm_append_singleton _ _).dedup.length_eq
    have known : t.fullName ∈ ts.map TypeInfo.fullName ↔
        ∃ old, lastDeclaration ts t.fullName = some old := by
      rw [hasLastDeclaration, List.mem_map]
    rw [duplicatesConcat, List.length_append, List.length_append, turned]
    cases last : lastDeclaration ts t.fullName with
    | none =>
      have fresh : t.fullName ∉ ts.map TypeInfo.fullName := by simp [known, last]
      rw [List.dedup_cons_of_notMem fresh]
      simp
      omega
    | some old =>
      rw [List.dedup_cons_of_mem (known.mpr ⟨old, last⟩)]
      simp
      omega

end SymbolTable

theorem classCounted (f : ProcessedFile) :
    f.summary.classCount = UInt64.ofNat f.types.length := by
  unfold ProcessedFile.summary ProcessedFile.types ProcessedFile.facts?
  cases f.facts with
  | error reason => rfl
  | ok facts => rfl

theorem classesCounted (files : List ProcessedFile) (issues : List ProjectIssue)
    (packages : UInt64) :
    (aggregate (files.map ProcessedFile.summary) issues packages).totalClasses =
      UInt64.ofNat (files.flatMap ProcessedFile.types).length := by
  have counted := aggregateCounter (files.map ProcessedFile.summary) issues packages .classes
  simp only [ProjectMetrics.counter, tally] at counted
  rw [counted]
  clear counted
  induction files with
  | nil => rfl
  | cons f files ih =>
    rw [List.map_cons, List.map_cons, List.sum_cons, UInt64.ofNat_add, ih, UInt64.ofNat_toNat,
      classCounted, List.flatMap_cons, List.length_append, UInt64.ofNat_add]

theorem assembledTypes (c : DetectorConfig) (files : List ProcessedFile) :
    (files.flatMap ProcessedFile.types).length =
      ((files.flatMap ProcessedFile.types).map TypeInfo.fullName).dedup.length +
        (assemble c files).symbols.duplicates.length := by
  have types : ((sortFiles files).flatMap ProcessedFile.types).Perm
      (files.flatMap ProcessedFile.types) := (sortFilesPerm files).flatMap_right _
  rw [← types.length_eq, ← (types.map TypeInfo.fullName).dedup.length_eq]
  exact SymbolTable.insertsCounted _

theorem assembledClasses (c : DetectorConfig) (files : List ProcessedFile) :
    (assemble c files).metrics.totalClasses =
      UInt64.ofNat (files.flatMap ProcessedFile.types).length := by
  have types := (sortFilesPerm files).flatMap_right ProcessedFile.types
  rw [← types.length_eq]
  exact classesCounted (sortFiles files) _ _

theorem analyzedFrom {files : FileTree} {s : Settings} {time : Timing}
    {parse : String → Source.Outcome} {token : Token} {r : AnalysisResult}
    (finished : (analyze files s time parse token).result = .ok r) :
    ∃ walked processed, walk files s = .ok walked ∧
      (processFiles files parse s token walked.files).result = .ok processed ∧
      r = .ofAssembly s.scanPath (assemble s.detectors processed) time := by
  unfold analyze at finished
  split at finished
  · cases finished
  · next walked found =>
    dsimp only at finished
    split at finished
    · cases finished
    · next processed work =>
      cases finished
      exact ⟨walked, processed, found, work, rfl⟩

theorem declarationsAccounted :
    (∀ ts : List TypeInfo,
      let s := SymbolTable.empty.insertAll ts
      (∀ name, s.get? name = (ts.filter fun t => t.fullName = name).getLast?) ∧
      (s.names.Pairwise (· < ·) ∧ ∀ name, name ∈ s.names ↔ ∃ t ∈ ts, t.fullName = name) ∧
      ts.length = s.size + s.duplicates.length ∧
      (∀ name,
        let own := ts.filter fun t => t.fullName = name
        let notes := s.duplicates.filter fun d => d.fullName = name
        notes = own.zipWith (fun old new => ⟨name, old.file, new.file⟩) own.tail ∧
        (∀ note, notes.head? = some note → own.head?.map TypeInfo.file = some note.replacedFile) ∧
        notes.IsChain (fun a b => a.winningFile = b.replacedFile) ∧
        ∀ note, notes.getLast? = some note →
          (s.get? name).map TypeInfo.file = some note.winningFile) ∧
      ∀ t,
        (s.exchange t).2 = SymbolTable.empty.insertAll (ts ++ [t]) ∧
        (s.exchange t).1 = (ts.filter fun u => u.fullName = t.fullName).getLast? ∧
        (s.exchange t).2.duplicates = s.duplicates ++
          (s.exchange t).1.toList.map (fun old => ⟨t.fullName, old.file, t.file⟩) ∧
        ((s.exchange t).1.isSome = true ↔ (s.exchange t).2.duplicates ≠ s.duplicates)) ∧
    ∀ files s time parse token r, (analyze files s time parse token).result = .ok r →
      ∃ walked processed, walk files s = .ok walked ∧
        (processFiles files parse s token walked.files).result = .ok processed ∧
        let declared := processed.flatMap ProcessedFile.types
        let names := (declared.map TypeInfo.fullName).dedup
        r.metrics.totalClasses = UInt64.ofNat (names.length + r.duplicateTypes.length) ∧
        (declared.length < UInt64.size →
          r.metrics.totalClasses.toNat = names.length + r.duplicateTypes.length) := by
  constructor
  · intro ts s
    have get : ∀ name, s.get? name = (ts.filter fun t => t.fullName = name).getLast? :=
      SymbolTable.getDeclared ts
    refine ⟨get, ⟨NameMap.keysIncreasing _, fun name => ?_⟩, ?_, fun name => ?_, ?_⟩
    · rw [SymbolTable.memNames, SymbolTable.containsDeclared]
    · rw [SymbolTable.sizeDeclared]
      exact SymbolTable.insertsCounted ts
    · intro own notes
      have exactly : notes = notesBetween name own := SymbolTable.duplicatesOfName ts name
      rw [exactly, get]
      exact ⟨rfl, fun _ => notesHead, notesLinked name own, fun _ => notesLast⟩
    · intro t
      have inserted : (s.exchange t).2.duplicates = s.duplicates ++
          (s.exchange t).1.toList.map fun old => ⟨t.fullName, old.file, t.file⟩ := by
        have added := SymbolTable.duplicatesConcat ts t
        rw [SymbolTable.insertConcat, ← SymbolTable.getDeclared] at added
        exact added
      refine ⟨(SymbolTable.insertConcat _ ts t).symm, get _, inserted, ?_⟩
      rw [inserted]
      cases (s.exchange t).1 with
      | none => simp
      | some old => simp
  · intro files s time parse token r finished
    obtain ⟨walked, processed, found, work, rfl⟩ := analyzedFrom finished
    have account := assembledTypes s.detectors processed
    have classes := assembledClasses s.detectors processed
    refine ⟨walked, processed, found, work, account ▸ classes, fun few => ?_⟩
    have counted := congrArg UInt64.toNat classes
    rw [UInt64.toNat_ofNat_of_lt' few] at counted
    exact counted.trans account

theorem declarationsAccountedInterleaved :
    let declared (name file : String) : TypeInfo :=
      { (default : TypeInfo) with fullName := name, file := file }
    let s := SymbolTable.empty.insertAll
      [declared "p.A" "1", declared "p.B" "1", declared "p.A" "2", declared "p.A" "3"]
    let source : List UInt8 := "class X {}".toList.map fun c => c.toNat.toUInt8
    let folder : Entry := .directory [("X.java", .file source)]
    let t : FileTree := ⟨.directory [("proj", .directory [("a", folder), ("b", folder)])], []⟩
    let settings : Settings := { scanPath := "proj" }
    (s.duplicates = [⟨"p.A", "1", "2"⟩, ⟨"p.A", "2", "3"⟩] ∧
      (s.get? "p.A").map TypeInfo.file = some "3" ∧ 4 = s.size + s.duplicates.length ∧
      (s.exchange (declared "p.B" "2")).1 = some (declared "p.B" "1")) ∧
    ∃ r, (analyze t settings).result = .ok r ∧
      r.metrics.totalClasses.toNat = 1 + r.duplicateTypes.length := by
  intro declared s source folder t settings
  let r : WalkRules := ⟨settings.excludedDirs, settings.testDirNames, matchesAny [], none⟩
  let shown : Listing := .directory [("X.java", .file)]
  let l : Listing := .directory [("a", shown), ("b", shown)]
  have rules : settings.walkRules = .ok r := rfl
  have listed : Listing.at? t settings.followLinks settings.scanPath = some l := by
    have pieces : Path.pieces "proj" = ["proj"] := by decide
    change Listing.at? t false "proj" = _
    unfold Listing.at? FileTree.resolve
    rw [pieces]
    rfl
  have seen : l.sightings r = [.source ["a", "X.java"], .source ["b", "X.java"]] := by
    decide +kernel
  have sorted : sortPaths [["a", "X.java"], ["b", "X.java"]] =
      [["a", "X.java"], ["b", "X.java"]] := List.mergeSort_of_pairwise (by decide)
  have outcome : l.walk r "proj" = ⟨[["a", "X.java"], ["b", "X.java"]], []⟩ := by
    simp [Listing.walk, seen, Sighting.source?, sorted]
  have walked : walk t settings = .ok ⟨[["a", "X.java"], ["b", "X.java"]], []⟩ := by
    rw [← outcome]
    simp only [walk, rules, listed]
    rfl
  let file (folder : String) := processFile t Source.parse settings [folder, "X.java"]
  have work : (processFiles t Source.parse settings {} [["a", "X.java"], ["b", "X.java"]]).result =
      .ok [file "a", file "b"] := rfl
  have analyzed : (analyze t settings).result =
      .ok (.ofAssembly "proj" (assemble settings.detectors [file "a", file "b"]) {}) := by
    unfold analyze
    rw [walked]
    rfl
  have types : ([file "a", file "b"].flatMap ProcessedFile.types).map TypeInfo.fullName =
      ["X", "X"] := by decide +kernel
  obtain ⟨runs, analyses⟩ := declarationsAccounted
  obtain ⟨_, _, size, notes, next⟩ :=
    runs [declared "p.A" "1", declared "p.B" "1", declared "p.A" "2", declared "p.A" "3"]
  obtain ⟨_, _, _, last⟩ := notes "p.A"
  refine ⟨⟨by decide, last ⟨"p.A", "2", "3"⟩ (by decide), size, (next _).2.1⟩, _, analyzed, ?_⟩
  obtain ⟨_, processed, found, done, _, classes⟩ := analyses _ _ _ _ _ _ analyzed
  cases walked.symm.trans found
  cases work.symm.trans done
  have few : ([file "a", file "b"].flatMap ProcessedFile.types).length < UInt64.size := by
    have two := congrArg List.length types
    rw [List.length_map] at two
    rw [two]
    decide
  have sum := classes few
  rw [types] at sum
  exact sum

end JavaAudit
