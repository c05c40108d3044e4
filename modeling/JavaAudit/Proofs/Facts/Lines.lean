import JavaAudit.Proofs.Facts.Members
import JavaAudit.Proofs.Source.Extents

/-! The lines that are recorded of a source that parses. Types, methods and handlers that do nothing are
listed in the order of their lines, no line is outside the source, and no method ends before it begins. -/
namespace JavaAudit
open Source Tree

theorem addEmptyCatches (file : String) (f : FileFacts) (e : Event) :
    (f.add file none e).emptyCatchLines = f.emptyCatchLines ++ e.emptyCatch?.toList := by
  cases e <;> simp [FileFacts.add, Event.emptyCatch?]

def Source.Kind.hasLine (k : Kind) : Bool :=
  match treatment k with
  | .type _ | .method | .catching => true
  | _ => false

def Source.Tree.hasLine (t : Tree) : Bool := t.kind?.any Kind.hasLine

theorem typeHasLine {t : Tree} (declares : t.declares?.isSome = true) : t.hasLine = true := by
  cases t with
  | leaf r token => cases declares
  | node r k cs =>
    rw [declaresTreated] at declares
    cases treated : treatment k <;> simp_all [hasLine, kind?, Kind.hasLine]

theorem methodHasLine {t : Tree} (method : t.isMethod = true) : t.hasLine = true := by
  obtain ⟨r, k, cs, rfl, treated⟩ := methodNode method
  simp [hasLine, kind?, Kind.hasLine, treated]

theorem catchHasLine {t : Tree} (handler : t.isEmptyCatch = true) : t.hasLine = true := by
  obtain ⟨r, cs, rfl⟩ := isKindNode (Bool.and_eq_true_iff.mp handler).1
  rfl

set_option maxRecDepth 2000 in
theorem grammarTakesTokens (n : Symbol) :
    ((grammar n).nodes.all fun entry => !entry.1.hasLine || entry.2.takesToken) = true := by
  cases n with
  | binary level arrows =>
    rcases level with _ | _ | _ | _ | _ | _ | _ | _ | _ | _ | level <;> rfl
  | _ => rfl

namespace Source.Spot

def firstLine (p : Spot) : Nat := p.tree.start.line

def lastLine (p : Spot) : Nat := p.tree.stop.line

def emptyCatch? (p : Spot) : Option Nat :=
  if p.reached && p.tree.isEmptyCatch then some p.firstLine else none

theorem givesEmptyCatches (p : Spot) :
    p.gives.filterMap Event.emptyCatch? = p.emptyCatch?.toList := by
  rw [givesProject seesEmptyCatch rfl, own, visitEmptyCatches, emptyCatch?]
  cases p.reached <;> cases p.tree.isEmptyCatch <;> rfl

theorem emptyCatchesBySpot (tree : Tree) (file : String) :
    (factsOf tree file).emptyCatchLines = tree.spots.filterMap emptyCatch? :=
  listedBySpot (addEmptyCatches file) rfl givesEmptyCatches tree

section Parsed

variable {source : String} {tree : Tree} (parsed : parse source = .parsed tree)
include parsed

theorem filled {p : Spot} (within : p ∈ tree.spots) (lined : p.tree.hasLine = true) :
    p.tree.leaves ≠ [] := by
  have each : tree.Each fun k cs => k.hasLine = true → Tree.leavesOf cs ≠ [] := by
    refine parsedEach parsed grammarTakesTokens fun k parts cs passed derives hasLine => ?_
    rw [hasLine] at passed
    exact Rule.leavesOfTaken derives passed
  have here := each.spot within
  cases shape : p.tree with
  | leaf r token => exact List.cons_ne_nil token []
  | node r k cs =>
    rw [shape] at here lined
    exact here.here lined

theorem linesWithin {p : Spot} (within : p ∈ tree.spots) (lined : p.tree.hasLine = true) :
    1 ≤ p.firstLine ∧ p.firstLine ≤ p.lastLine ∧ p.lastLine ≤ source.toList.count '\n' + 1 := by
  obtain ⟨first, last⟩ := parsedExtent parsed within (filled parsed within lined)
  exact ⟨Nat.le_add_left 1 _, Nat.succ_le_succ first, Nat.succ_le_succ last⟩

theorem linesListed {β : Type} {g : Spot → Option β} {line : β → Nat}
    (placed : ∀ p b, g p = some b → p.tree.hasLine = true ∧ line b = p.firstLine) :
    ((tree.spots.filterMap g).map line).Pairwise (· ≤ ·) ∧
      ∀ b ∈ tree.spots.filterMap g, 1 ≤ line b ∧ line b ≤ source.toList.count '\n' + 1 := by
  constructor
  · rw [List.pairwise_map, List.pairwise_filterMap]
    refine (parsedStarts parsed).imp_of_mem fun {p q} within within' ordered b found c found' => ?_
    obtain ⟨lined, here⟩ := placed p b found
    obtain ⟨lined', there⟩ := placed q c found'
    rw [here, there]
    exact Nat.succ_le_succ (ordered (filled parsed within lined) (filled parsed within' lined'))
  · intro b mem
    obtain ⟨p, within, found⟩ := List.mem_filterMap.mp mem
    obtain ⟨lined, here⟩ := placed p b found
    obtain ⟨positive, order, bound⟩ := linesWithin parsed within lined
    exact here ▸ ⟨positive, order.trans bound⟩

end Parsed

end Source.Spot

theorem mappedBy {α β γ : Type} {f : α → Option β} {g : β → γ} {h : α → γ}
    (each : ∀ x y, f x = some y → g y = h x) (xs : List α) :
    (xs.filterMap f).map g = (xs.filter fun x => (f x).isSome).map h := by
  induction xs with
  | nil => rfl
  | cons x xs ih =>
    cases found : f x with
    | none => simpa [found] using ih
    | some y => simpa [found, each x y found] using ih

theorem typePlaced {tree : Tree} {file : String} {p : Spot} {t : TypeInfo}
    (found : typeAt? tree file p = some t) : p.tree.hasLine = true ∧ t.line = p.firstLine := by
  obtain ⟨⟨kind, name⟩, declares, rfl⟩ := Option.map_eq_some_iff.mp found
  exact ⟨typeHasLine (by rw [Spot.declaresTree declares]; rfl), rfl⟩

theorem methodPlaced {p : Spot} {m : MethodFacts} (found : p.methodAt? = some m) :
    p.tree.hasLine = true ∧ m.lineStart = p.firstLine ∧ m.lineEnd = p.lastLine := by
  have method : p.tree.isMethod = true := by
    have recorded : p.isRecorded = true := by rw [Spot.recordedIff, found]; rfl
    simp only [Spot.isRecorded, Bool.and_eq_true] at recorded
    exact recorded.1.2
  obtain ⟨d, kind, name, k, -, -, -, rfl⟩ := Spot.methodAtSome found
  exact ⟨methodHasLine method, rfl, rfl⟩

theorem emptyCatchPlaced {p : Spot} {line : Nat} (found : p.emptyCatch? = some line) :
    p.tree.hasLine = true ∧ line = p.firstLine := by
  obtain ⟨handler, same⟩ := Option.ite_none_right_eq_some.mp found
  exact ⟨catchHasLine (Bool.and_eq_true_iff.mp handler).2, (Option.some.inj same).symm⟩

theorem emptyCatchSome (p : Spot) :
    (p.reached && p.tree.isEmptyCatch) = p.emptyCatch?.isSome := by
  rw [Spot.emptyCatch?]
  split <;> simp_all

theorem linesInOrder {source : String} {tree : Tree} (parsed : parse source = .parsed tree)
    (file : String) :
    let facts := factsOf tree file
    let last := source.toList.count '\n' + 1
    (facts.types.map TypeInfo.line =
        (tree.spots.filter fun p => p.reached && p.tree.declares?.isSome).map Spot.firstLine ∧
      (facts.types.map TypeInfo.line).Pairwise (· ≤ ·) ∧
      ∀ t ∈ facts.types, 1 ≤ t.line ∧ t.line ≤ last) ∧
    (facts.emptyCatchLines =
        (tree.spots.filter fun p => p.reached && p.tree.isEmptyCatch).map Spot.firstLine ∧
      facts.emptyCatchLines.Pairwise (· ≤ ·) ∧
      ∀ line ∈ facts.emptyCatchLines, 1 ≤ line ∧ line ≤ last) ∧
    facts.methods.map (fun m => (m.lineStart, m.lineEnd)) =
      (tree.spots.filter Spot.isRecorded).map (fun p => (p.firstLine, p.lastLine)) ∧
    (facts.methods.map MethodFacts.lineStart).Pairwise (· ≤ ·) ∧
    ∀ m ∈ facts.methods, 1 ≤ m.lineStart ∧ m.lineStart ≤ m.lineEnd ∧ m.lineEnd ≤ last ∧
      (m.lineCount : Int) = m.lineEnd - m.lineStart + 1 := by
  intro facts last
  have types : facts.types = tree.spots.filterMap (typeAt? tree file) := typesBySpot tree file
  have catches : facts.emptyCatchLines = tree.spots.filterMap Spot.emptyCatch? :=
    Spot.emptyCatchesBySpot tree file
  have methods : facts.methods = tree.spots.filterMap Spot.methodAt? := Spot.methodsBySpot tree file
  rw [types, catches, methods]
  refine ⟨⟨?_, Spot.linesListed parsed fun p t => typePlaced⟩, ⟨?_, ?_⟩, ?_, ?_, ?_⟩
  · rw [List.filter_congr fun p _ => typeAtSome tree file p]
    exact mappedBy (fun p t found => (typePlaced found).2) tree.spots
  · rw [List.filter_congr fun p _ => emptyCatchSome p, ← List.map_id (tree.spots.filterMap _)]
    exact mappedBy (fun p line found => (emptyCatchPlaced found).2) tree.spots
  · have placed : ∀ p line, Spot.emptyCatch? p = some line →
        p.tree.hasLine = true ∧ id line = p.firstLine := fun p line => emptyCatchPlaced
    have listed := Spot.linesListed parsed placed
    rwa [List.map_id] at listed
  · rw [List.filter_congr fun p _ => Spot.recordedIff p]
    refine mappedBy (fun p m found => ?_) tree.spots
    obtain ⟨-, first, final⟩ := methodPlaced found
    rw [first, final]
  · refine (Spot.linesListed parsed fun p m found => ?_).1
    obtain ⟨lined, first, -⟩ := methodPlaced found
    exact ⟨lined, first⟩
  · intro m mem
    obtain ⟨p, within, found⟩ := List.mem_filterMap.mp mem
    obtain ⟨lined, first, final⟩ := methodPlaced found
    obtain ⟨positive, order, bound⟩ := Spot.linesWithin parsed within lined
    rw [← first, ← final] at order
    refine ⟨first ▸ positive, order, final ▸ bound, ?_⟩
    rw [MethodFacts.lineCount]
    omega

theorem linesInOrderNested :
    let source := "class A\x7b\nvoid m()\x7b\ntry\x7b\x7dcatch(E e)\x7b\x7d\x7d\nclass B\x7b\x7d\x7d"
    let facts := factsOf (treeOfSource source) "A.java"
    parse source = .parsed (treeOfSource source) ∧ facts.types.map TypeInfo.line = [1, 4] ∧
    facts.methods.map (fun m => (m.lineStart, m.lineEnd)) = [(2, 3)] ∧ facts.emptyCatchLines = [3] ∧
    ∀ m ∈ facts.methods, 1 ≤ m.lineStart ∧ m.lineStart ≤ m.lineEnd ∧
      m.lineEnd ≤ source.toList.count '\n' + 1 ∧
      (m.lineCount : Int) = m.lineEnd - m.lineStart + 1 := by
  intro source facts
  have parsed : parse source = .parsed (treeOfSource source) := parsedOfWhole (by decide +kernel)
  obtain ⟨types, methods, catches⟩ : facts.types.map TypeInfo.line = [1, 4] ∧
      facts.methods.map (fun m => (m.lineStart, m.lineEnd)) = [(2, 3)] ∧
        facts.emptyCatchLines = [3] := by
    have found : facts = _ := factsOfEvents (treeOfSource source) "A.java"
    rw [found]
    decide +kernel
  obtain ⟨-, -, -, -, within⟩ := linesInOrder parsed "A.java"
  exact ⟨parsed, types, methods, catches, within⟩

end JavaAudit
