import JavaAudit.Proofs.Facts.Types
import JavaAudit.Proofs.Source.Dotted

/-! The dotted names of packages and imports as they are recorded. Blanks around the dots are dropped, and
comments there are not: the name is the segments with single dots between them exactly if no comment
stands inside it. -/
namespace JavaAudit
open Source Tree

namespace Source.Spot

def importRef? (p : Spot) : Option ImportRef := if p.reached then p.tree.importRef? else none

theorem givesImports (p : Spot) : p.gives.filterMap Event.imported? = p.importRef?.toList := by
  rw [givesProject seesImported rfl, own, visitImports, importRef?]
  split <;> rfl

end Source.Spot

theorem addImports (file : String) (f : FileFacts) (e : Event) :
    (f.add file none e).imports = f.imports ++ e.imported?.toList := by
  cases e <;> simp [FileFacts.add, Event.imported?]

theorem importsBySpot (tree : Tree) (file : String) :
    (factsOf tree file).imports = tree.spots.filterMap Spot.importRef? :=
  listedBySpot (addImports file) rfl Spot.givesImports tree

theorem packageBySpot (tree : Tree) (file : String) :
    (factsOf tree file).package =
      (tree.spots.filterMap Spot.packageName?).getLast?.getD defaultPackage := by
  rw [factsOfEvents, eventsBySpot, foldPackage, projectAlong Spot.givesPackages]
  rfl

section Parsed

variable {source : String} {tree : Tree} (parsed : parse source = .parsed tree)
include parsed

theorem declarationRecorded {p : Spot} (within : p ∈ tree.spots) {k : Kind}
    (naming : k = .packageDeclaration ∨ k = .importDeclaration) (kind : p.tree.isKind k = true) :
    ∃ name, p.tree.children.filter isName = [name] ∧ RecordedAs name name.dotted := by
  obtain ⟨r, cs, shape⟩ := isKindNode kind
  have built := (parsedBuilt parsed).spot within
  rw [shape] at built
  obtain ⟨name, only, dotted⟩ := namingBuilt built.here naming
  have held : p.tree.children.filter isName = [name] := by rw [shape]; exact only
  have child : name ∈ p.tree.children := by
    refine List.mem_of_mem_filter (p := isName) ?_
    rw [held]
    exact List.mem_singleton_self name
  rw [← Spot.childrenTrees] at child
  obtain ⟨c, below, rfl⟩ := List.mem_map.mp child
  have part : c.tree.leaves <:+: tree.leaves :=
    (Spot.leavesOfChild below).trans (Spot.leavesInside within)
  rw [parsedLeaves parsed] at part
  exact ⟨c.tree, held, recordedDotted part dotted⟩

theorem packageRecorded {p : Spot} (within : p ∈ tree.spots) :
    (p.reached && p.tree.isKind .packageDeclaration) = p.packageName?.isSome ∧
    ∀ recorded, p.packageName? = some recorded →
      ∃ name, p.tree.children.filter isName = [name] ∧ RecordedAs name recorded := by
  unfold Spot.packageName? Tree.packageName?
  cases p.reached with
  | false => simp
  | true =>
    cases kind : p.tree.isKind .packageDeclaration with
    | false => simp
    | true =>
      obtain ⟨name, held, recorded⟩ := declarationRecorded parsed within (.inl rfl) kind
      rw [← List.head?_filter, held]
      simpa [held] using recorded

theorem importRecorded {p : Spot} (within : p ∈ tree.spots) :
    (p.reached && p.tree.isKind .importDeclaration) = p.importRef?.isSome ∧
    ∀ ref, p.importRef? = some ref →
      ∃ name, p.tree.children.filter isName = [name] ∧ RecordedAs name ref.path := by
  unfold Spot.importRef? Tree.importRef?
  cases p.reached with
  | false => simp
  | true =>
    cases kind : p.tree.isKind .importDeclaration with
    | false => simp
    | true =>
      obtain ⟨name, held, recorded⟩ := declarationRecorded parsed within (.inr rfl) kind
      rw [held]
      simpa [held] using recorded

end Parsed

theorem dottedNamesRecorded {source : String} {tree : Tree} (parsed : parse source = .parsed tree)
    (file : String) :
    (∃ names : List String,
      List.Forall₂
        (fun (p : Spot) (recorded : String) =>
          ∃ name, p.tree.children.filter isName = [name] ∧ RecordedAs name recorded)
        (tree.spots.filter fun p => p.reached && p.tree.isKind .packageDeclaration) names ∧
      (factsOf tree file).package = names.getLast?.getD defaultPackage) ∧
    List.Forall₂
      (fun (p : Spot) (ref : ImportRef) =>
        ∃ name, p.tree.children.filter isName = [name] ∧ RecordedAs name ref.path)
      (tree.spots.filter fun p => p.reached && p.tree.isKind .importDeclaration)
      (factsOf tree file).imports := by
  constructor
  · refine ⟨tree.spots.filterMap Spot.packageName?, ?_, packageBySpot tree file⟩
    rw [List.filter_congr fun p within => (packageRecorded parsed within).1]
    exact listedBy fun p within => (packageRecorded parsed within).2
  · rw [importsBySpot, List.filter_congr fun p within => (importRecorded parsed within).1]
    exact listedBy fun p within => (importRecorded parsed within).2

theorem dottedNamesRecordedSpread :
    let source := "package a .\n b;\nimport static c . /*x*/ d\n.e;\nclass X\x7b\x7d"
    let tree := treeOfSource source
    parse source = .parsed tree ∧ (factsOf tree "X.java").package = "a.b" ∧
    (factsOf tree "X.java").imports.map ImportRef.path = ["c./*x*/d.e"] ∧
    List.Forall₂
      (fun (p : Spot) (ref : ImportRef) =>
        ∃ name, p.tree.children.filter isName = [name] ∧ RecordedAs name ref.path)
      (tree.spots.filter fun p => p.reached && p.tree.isKind .importDeclaration)
      (factsOf tree "X.java").imports := by
  intro source tree
  have parsed : parse source = .parsed tree := parsedOfWhole (by decide +kernel)
  obtain ⟨package, imports⟩ : (factsOf tree "X.java").package = "a.b" ∧
      (factsOf tree "X.java").imports.map ImportRef.path = ["c./*x*/d.e"] := by
    rw [factsOfEvents]
    decide +kernel
  exact ⟨parsed, package, imports, (dottedNamesRecorded parsed "X.java").2⟩

/-- A comment behind a dot becomes part of the name of a package. -/
theorem packageCommentKept :
    let source := "package a./*x*/b;\nclass X \x7b\x7d"
    let tree := treeOfSource source
    parse source = .parsed tree ∧
    (∃ p ∈ tree.spots, p.reached = true ∧ p.tree.isKind .packageDeclaration = true ∧
      (p.tree.children.filter isName).map Tree.identifiers = [["a", "b"]]) ∧
    (factsOf tree "X.java").package = "a./*x*/b" := by
  intro source tree
  have parsed : parse source = .parsed tree := parsedOfWhole (by decide +kernel)
  refine ⟨parsed, ?_⟩
  rw [factsOfEvents]
  decide +kernel

end JavaAudit
