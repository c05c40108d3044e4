import JavaAudit.Analysis
import JavaAudit.Proofs.Declarations
import JavaAudit.Proofs.Paths

/-! Files are brought together in the order of their paths. Files with different paths have exactly
one such order, so nothing that is made of them depends on the order in which they come. -/
namespace JavaAudit

def PathOrdered (files : List ProcessedFile) : Prop :=
  files.Pairwise fun a b => Path.precedes a.names b.names = true

instance (files : List ProcessedFile) : Decidable (PathOrdered files) :=
  inferInstanceAs (Decidable (files.Pairwise _))

theorem sortFilesPerm (files : List ProcessedFile) : (sortFiles files).Perm files :=
  List.mergeSort_perm files _

theorem sortFilesOrdered (files : List ProcessedFile) : PathOrdered (sortFiles files) := by
  unfold PathOrdered sortFiles
  apply List.pairwise_mergeSort
  · intro a b c left right
    exact Path.precedesTrans left right
  · intro a b
    exact Path.precedesTotal a.names b.names

theorem orderedUnique {left right : List ProcessedFile}
    (distinct : (left.map ProcessedFile.names).Nodup) (perm : left.Perm right)
    (leftOrder : PathOrdered left) (rightOrder : PathOrdered right) : left = right := by
  -- Files that precede each other have one path, and no two files share a path.
  refine perm.eq_of_pairwise (fun a b inLeft inRight ab ba => ?_) leftOrder rightOrder
  have same : a.names = b.names := Path.precedesAntisymm ab ba
  exact List.inj_on_of_nodup_map distinct inLeft (perm.mem_iff.mpr inRight) same

theorem sortFilesEq {files ordered : List ProcessedFile}
    (distinct : (files.map ProcessedFile.names).Nodup) (perm : ordered.Perm files)
    (order : PathOrdered ordered) : sortFiles files = ordered := by
  have sorted := sortFilesPerm files
  have names : ((sortFiles files).map ProcessedFile.names).Nodup :=
    (sorted.map ProcessedFile.names).nodup_iff.mpr distinct
  exact orderedUnique names (sorted.trans perm.symm) (sortFilesOrdered files) order

theorem assemblyOrderFree (c : DetectorConfig) {files others : List ProcessedFile}
    (distinct : (files.map ProcessedFile.names).Nodup) (perm : others.Perm files) :
    (assemble c others = assemble c files ∧ ∀ root time,
      AnalysisResult.ofAssembly root (assemble c others) time =
        AnalysisResult.ofAssembly root (assemble c files) time) ∧
    (∃! ordered, ordered.Perm files ∧ PathOrdered ordered) ∧
    ∀ ordered, ordered.Perm files → PathOrdered ordered →
      (assemble c others).files = ordered.map ProcessedFile.summary ∧
      (assemble c others).symbols =
        SymbolTable.empty.insertAll (ordered.flatMap ProcessedFile.types) := by
  have names : (others.map ProcessedFile.names).Nodup :=
    (perm.map ProcessedFile.names).nodup_iff.mpr distinct
  have sorted : sortFiles others = sortFiles files :=
    sortFilesEq names ((sortFilesPerm files).trans perm.symm) (sortFilesOrdered files)
  have same : assemble c others = assemble c files := by
    unfold assemble
    rw [sorted]
  refine ⟨⟨same, fun root time => by rw [same]⟩, ⟨sortFiles files, ?_, ?_⟩, ?_⟩
  · exact ⟨sortFilesPerm files, sortFilesOrdered files⟩
  · rintro ordered ⟨arranged, order⟩
    exact (sortFilesEq distinct arranged order).symm
  · intro ordered arranged order
    have equal : sortFiles others = ordered := sorted.trans (sortFilesEq distinct arranged order)
    exact ⟨by rw [assemble, equal], by rw [assemble, equal]⟩

theorem assemblyOrderFreeDuplicate :
    let declared (file : String) : TypeInfo :=
      { (default : TypeInfo) with fullName := "p.X", package := "p", file := file }
    let read (folder : String) : ProcessedFile :=
      ⟨[folder, "X.java"], .ok { FileFacts.empty with
        package := "p", types := [declared (folder ++ "/X.java")] }, []⟩
    let broken : ProcessedFile := .failed ["a", "Y.java"] "unexpected token"
    assemble {} [broken, read "b", read "a"] = assemble {} [read "a", read "b", broken] ∧
    (assemble {} [broken, read "b", read "a"]).files.map FileSummary.path =
      ["a/X.java", "a/Y.java", "b/X.java"] ∧
    (assemble {} [broken, read "b", read "a"]).symbols.duplicates =
      [⟨"p.X", "a/X.java", "b/X.java"⟩] := by
  intro declared read broken
  have distinct : ([read "a", read "b", broken].map ProcessedFile.names).Nodup := by decide
  have perm : [broken, read "b", read "a"].Perm [read "a", read "b", broken] :=
    List.reverse_perm [read "a", read "b", broken]
  have arranged : [read "a", broken, read "b"].Perm [read "a", read "b", broken] :=
    .cons _ (.swap _ _ [])
  obtain ⟨⟨same, _⟩, _, made⟩ := assemblyOrderFree {} distinct perm
  obtain ⟨files, symbols⟩ := made _ arranged (by decide)
  exact ⟨same, by rw [files]; decide, by rw [symbols]; decide⟩

end JavaAudit
