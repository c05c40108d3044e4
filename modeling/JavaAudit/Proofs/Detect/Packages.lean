import JavaAudit.Proofs.Declarations
import JavaAudit.Proofs.Detect.Order

/-! The packages of a symbol table. Every type is in the group of its package and in no other, and the
two checks of packages report each package beyond their limit once, in increasing order. -/
namespace JavaAudit

theorem splitLength (separator : Char) (cs : List Char) :
    (splitChars separator cs).length = cs.count separator + 1 := by
  induction cs with
  | nil => rfl
  | cons c cs ih =>
    unfold splitChars
    split
    · next same =>
      rw [List.length_cons, ih, same, List.count_cons_self]
    · next different =>
      rw [List.count_cons_of_ne different, ← ih]
      split
      · next none => exact absurd none (splitCharsNonempty separator cs)
      · next split => rw [split, List.length_cons, List.length_cons]

theorem packageDepthEq (package : String) :
    packageDepth package = package.toList.count '.' + 1 := by
  rw [packageDepth, segments, split, List.length_map, splitLength]

namespace SymbolTable

def entriesIn (s : SymbolTable) (package : String) : List (String × TypeInfo) :=
  s.types.toList.filter fun entry => entry.2.package = package

def namesIn (s : SymbolTable) (package : String) : List String :=
  s.names.filter fun name => (s.get? name).any fun t => t.package = package

section Packages

variable {s : SymbolTable} {package : String}

theorem namesInEq : s.namesIn package = (s.entriesIn package).map Prod.fst := by
  rw [namesIn, names, NameMap.keys, List.filter_map, entriesIn]
  congr 1
  refine List.filter_congr fun entry mem => ?_
  rw [Function.comp, get?, NameMap.memOfGet.mpr mem, Option.any_some]

theorem infosInEq :
    (s.infos.filter fun t => t.package = package) = (s.entriesIn package).map Prod.snd := by
  rw [infos, NameMap.values, List.filter_map]
  rfl

theorem memEntriesIn {name : String} {t : TypeInfo} :
    (name, t) ∈ s.entriesIn package ↔ s.get? name = some t ∧ t.package = package := by
  rw [entriesIn, List.mem_filter, get?, NameMap.memOfGet, decide_eq_true_eq]

theorem namesInIncreasing : (s.namesIn package).Pairwise (· < ·) :=
  s.types.keysIncreasing.filter _

theorem namesInOfTypes :
    List.Forall₂ (fun name t => s.get? name = some t ∧ t.package = package) (s.namesIn package)
      ((s.entriesIn package).map Prod.snd) := by
  rw [namesInEq, List.forall₂_map_left_iff, List.forall₂_map_right_iff, List.forall₂_same]
  exact fun entry mem => memEntriesIn.mp mem

theorem getGrouped (m : NameMap (List TypeInfo)) (ts : List TypeInfo) (package : String) :
    (ts.foldl (fun m t => m.alter t.package fun us => us.getD [] ++ [t]) m).get? package =
      if ts.filter (fun t => t.package = package) = [] then m.get? package
      else some ((m.get? package).getD [] ++ ts.filter fun t => t.package = package) := by
  induction ts generalizing m with
  | nil => rfl
  | cons t ts ih =>
    rw [List.foldl_cons, ih, NameMap.getAlter]
    by_cases same : t.package = package
    · by_cases last : ts.filter (fun t => t.package = package) = [] <;> simp [same, last]
    · simp [same, Ne.symm same]

theorem getByPackage {ts : List TypeInfo} :
    s.byPackage.get? package = some ts ↔ ts = (s.entriesIn package).map Prod.snd ∧ ts ≠ [] := by
  rw [byPackage, getGrouped, infosInEq]
  split
  · next none =>
    rw [none]
    simp
  · next filled =>
    rw [NameMap.getEmpty, Option.getD_none, List.nil_append, Option.some.injEq]
    constructor
    · rintro rfl
      exact ⟨rfl, filled⟩
    · exact fun same => same.1.symm

theorem memGroup {name : String} {t : TypeInfo} (listed : s.get? name = some t) :
    (∃ ts, s.byPackage.get? package = some ts ∧ t ∈ ts) ↔ package = t.package := by
  constructor
  · rintro ⟨ts, group, mem⟩
    obtain ⟨rfl, -⟩ := getByPackage.mp group
    obtain ⟨entry, within, rfl⟩ := List.mem_map.mp mem
    exact (memEntriesIn.mp within).2.symm
  · rintro rfl
    have mem : t ∈ (s.entriesIn t.package).map Prod.snd :=
      List.mem_map.mpr ⟨(name, t), memEntriesIn.mpr ⟨listed, rfl⟩, rfl⟩
    exact ⟨_, getByPackage.mpr ⟨rfl, List.ne_nil_of_mem mem⟩, mem⟩

theorem memByPackage :
    s.byPackage.contains package = true ↔ ∃ name t, s.get? name = some t ∧ t.package = package := by
  rw [NameMap.containsIff]
  constructor
  · rintro ⟨ts, group⟩
    obtain ⟨rfl, filled⟩ := getByPackage.mp group
    obtain ⟨t, mem⟩ := List.exists_mem_of_ne_nil _ filled
    obtain ⟨entry, within, -⟩ := List.mem_map.mp mem
    exact ⟨entry.1, entry.2, memEntriesIn.mp within⟩
  · rintro ⟨name, t, listed, rfl⟩
    obtain ⟨ts, group, -⟩ := (memGroup listed).mpr rfl
    exact ⟨ts, group⟩

theorem memPackages :
    package ∈ s.packages ↔ ∃ name t, s.get? name = some t ∧ t.package = package := by
  simp only [packages, NameSet.memOfList, infos, NameMap.values, List.map_map, List.mem_map,
    Function.comp, get?, NameMap.memOfGet, Prod.exists]

theorem byPackageSize (s : SymbolTable) : s.byPackage.size = s.packageCount := by
  have same : s.byPackage.keys = s.packages.toList := by
    refine eqOfIncreasing id s.byPackage.keysIncreasing s.packages.increasing fun package => ?_
    rw [NameMap.memKeys, memByPackage, ← NameSet.memDef, memPackages]
  rw [packageCount, NameSet.size, ← same, NameMap.keys, List.length_map, NameMap.size]

end Packages

theorem fullNamesOfDeclared {ts : List TypeInfo} {name : String} {t : TypeInfo}
    (listed : (empty.insertAll ts).get? name = some t) : t.fullName = name := by
  rw [getDeclared] at listed
  exact (lastDeclared listed).2

theorem groupsByFullName (types : List TypeInfo) {package : String} :
    (((empty.insertAll types).entriesIn package).map Prod.snd).Pairwise
      (fun a b => a.fullName < b.fullName) := by
  have order : ((empty.insertAll types).entriesIn package).Pairwise fun a b => a.1 < b.1 :=
    (empty.insertAll types).types.increasing.filter _
  refine List.pairwise_map.mpr (order.imp_of_mem fun {a b} left right less => ?_)
  rw [fullNamesOfDeclared (memEntriesIn.mp left).1, fullNamesOfDeclared (memEntriesIn.mp right).1]
  exact less

end SymbolTable

namespace Detect

theorem memGodPackages {threshold : Nat} {symbols : SymbolTable} {issue : ProjectIssue} :
    issue ∈ godPackages threshold symbols ↔
      ∃ package, threshold < (symbols.namesIn package).length ∧
        issue = godPackageIssue threshold package (symbols.namesIn package).length := by
  have size : ∀ package, (symbols.namesIn package).length =
      ((symbols.entriesIn package).map Prod.snd).length := by
    intro package
    rw [SymbolTable.namesInEq, List.length_map, List.length_map]
  simp only [godPackages, List.mem_map, List.mem_filter, decide_eq_true_eq, size]
  constructor
  · rintro ⟨⟨package, ts⟩, ⟨mem, large⟩, rfl⟩
    obtain ⟨rfl, -⟩ := SymbolTable.getByPackage.mp (NameMap.memOfGet.mpr mem)
    exact ⟨package, large, rfl⟩
  · rintro ⟨package, large, rfl⟩
    have filled := List.ne_nil_of_length_pos (Nat.zero_lt_of_lt large)
    exact ⟨(package, _), ⟨NameMap.memOfGet.mp (SymbolTable.getByPackage.mpr ⟨rfl, filled⟩), large⟩,
      rfl⟩

theorem memDeepPackages {threshold : Nat} {symbols : SymbolTable} {issue : ProjectIssue} :
    issue ∈ deepPackages threshold symbols ↔
      ∃ package, (∃ name t, symbols.get? name = some t ∧ t.package = package) ∧
        threshold < package.toList.count '.' + 1 ∧ issue = deepPackageIssue threshold package := by
  simp only [deepPackages, List.mem_map, List.mem_filter, decide_eq_true_eq, packageDepthEq,
    NameMap.memKeys, SymbolTable.memByPackage]
  constructor
  · rintro ⟨package, ⟨present, deep⟩, rfl⟩
    exact ⟨package, present, deep, rfl⟩
  · rintro ⟨package, present, deep, rfl⟩
    exact ⟨package, ⟨present, deep⟩, rfl⟩

theorem packagesExact (symbols : SymbolTable) :
    let groups := symbols.byPackage
    groups.keys.Pairwise (· < ·) ∧
    groups.size = symbols.packageCount ∧
    (∀ name t, symbols.get? name = some t → ∀ package,
      (∃ ts, groups.get? package = some ts ∧ t ∈ ts) ↔ package = t.package) ∧
    (∀ package ts, groups.get? package = some ts → ts ≠ [] ∧
      (symbols.namesIn package).Pairwise (· < ·) ∧
      List.Forall₂ (fun name t => symbols.get? name = some t ∧ t.package = package)
        (symbols.namesIn package) ts) ∧
    (∀ types, symbols = SymbolTable.empty.insertAll types → ∀ package ts,
      groups.get? package = some ts → ts.Pairwise (fun a b => a.fullName < b.fullName)) ∧
    (∀ threshold,
      (godPackages threshold symbols).Pairwise (fun a b => a.location < b.location) ∧
      ∀ issue, issue ∈ godPackages threshold symbols ↔
        ∃ package, threshold < (symbols.namesIn package).length ∧
          issue = godPackageIssue threshold package (symbols.namesIn package).length) ∧
    (∀ threshold,
      (deepPackages threshold symbols).Pairwise (fun a b => a.location < b.location) ∧
      ∀ issue, issue ∈ deepPackages threshold symbols ↔
        ∃ package, (∃ name t, symbols.get? name = some t ∧ t.package = package) ∧
          threshold < package.toList.count '.' + 1 ∧
          issue = deepPackageIssue threshold package) := by
  refine ⟨symbols.byPackage.keysIncreasing, symbols.byPackageSize,
    fun name t listed package => SymbolTable.memGroup listed, ?_, ?_,
    fun threshold => ⟨(godPackagesInOrder threshold symbols).1, fun issue => memGodPackages⟩,
    fun threshold => ⟨(deepPackagesInOrder threshold symbols).1, fun issue => memDeepPackages⟩⟩
  · intro package ts group
    obtain ⟨rfl, filled⟩ := SymbolTable.getByPackage.mp group
    exact ⟨filled, SymbolTable.namesInIncreasing, SymbolTable.namesInOfTypes⟩
  · rintro types rfl package ts group
    obtain ⟨rfl, -⟩ := SymbolTable.getByPackage.mp group
    exact SymbolTable.groupsByFullName types

theorem packagesExactInterleaved :
    let declared (package name : String) : TypeInfo :=
      { (default : TypeInfo) with fullName := name, package := package }
    let types := [declared "p" "p.q.Z", declared "p.q" "p.q.A", declared "p" "p.B"]
    let symbols := SymbolTable.empty.insertAll types
    symbols.byPackage.get? "p" = some [declared "p" "p.B", declared "p" "p.q.Z"] ∧
    [declared "p" "p.B", declared "p" "p.q.Z"].Pairwise (fun a b => a.fullName < b.fullName) ∧
    (∃ ts, symbols.byPackage.get? "p.q" = some ts ∧ declared "p.q" "p.q.A" ∈ ts) ∧
    godPackageIssue 1 "p" 2 ∈ godPackages 1 symbols ∧
    deepPackageIssue 1 "p" ∉ deepPackages 1 symbols := by
  intro declared types symbols
  obtain ⟨-, -, one, -, sorted, god, deep⟩ := packagesExact symbols
  have group : symbols.byPackage.get? "p" = some [declared "p" "p.B", declared "p" "p.q.Z"] := by
    decide
  have listed : symbols.get? "p.q.A" = some (declared "p.q" "p.q.A") := by decide
  refine ⟨group, sorted types rfl _ _ group, (one _ _ listed _).mpr rfl, ?_, ?_⟩
  · exact ((god 1).2 _).mpr ⟨"p", by decide, by decide⟩
  · rw [(deep 1).2]
    rintro ⟨package, -, more, same⟩
    have here : package = "p" := (congrArg ProjectIssue.location same).symm
    rw [here] at more
    exact absurd more (by decide)

end Detect

end JavaAudit
