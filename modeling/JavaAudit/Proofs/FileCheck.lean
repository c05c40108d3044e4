import JavaAudit.FileCheck
import JavaAudit.Proofs.Sorting

/-! The checks of a file are exact: each finding of the file gives one issue, the issues come by line,
and on one line in the order in which they are looked for. Higher limits only take issues away. -/
namespace JavaAudit

namespace FileCheck

theorem flatMapIf {α β : Type} (p : α → Prop) [DecidablePred p] (g : α → β) (xs : List α) :
    (xs.flatMap fun x => if p x then [g x] else []) = (xs.filter fun x => p x).map g := by
  induction xs with
  | nil => rfl
  | cons x xs ih => by_cases h : p x <;> simp [h, ih]

theorem codedAlike {α : Type} {g : α → FileIssue} {own : IssueCode} (coded : ∀ x, (g x).code = own)
    (xs : List α) (code : IssueCode) :
    (xs.map g).filter (fun i => i.code = code) = if own = code then xs.map g else [] := by
  by_cases same : own = code <;> simp [List.filter_map, Function.comp_def, coded, same]

def expected (l : Limits) (f : FileFacts) : IssueCode → List FileIssue
  | .highComplexity =>
      (f.methods.filter fun m => l.complexity < m.complexity).map (highComplexity l)
  | .longMethod => (f.methods.filter fun m => l.lines < m.lineCount).map (longMethod l)
  | .tooManyParameters =>
      (f.methods.filter fun m => l.parameters < m.parameterCount).map (tooManyParameters l)
  | .emptyCatchBlock => f.emptyCatchLines.map emptyCatch
  | .typeNaming => (f.types.filter fun t => !isCapitalized t.simpleName).map typeNaming
  | _ => []

theorem methodsCoded (l : Limits) (methods : List MethodFacts) (code : IssueCode) :
    (methods.flatMap (methodIssues l)).filter (fun i => i.code = code) =
      expected l { FileFacts.empty with methods := methods } code := by
  have each : ∀ m, (methodIssues l m).filter (fun i => i.code = code) =
      match code with
      | .highComplexity => if l.complexity < m.complexity then [highComplexity l m] else []
      | .longMethod => if l.lines < m.lineCount then [longMethod l m] else []
      | .tooManyParameters => if l.parameters < m.parameterCount then [tooManyParameters l m] else []
      | _ => [] := by
    intro m
    cases code <;>
      simp [methodIssues, apply_ite (List.filter _), highComplexity, longMethod, tooManyParameters]
  rw [List.filter_flatMap, funext each]
  cases code with
  | highComplexity | longMethod | tooManyParameters => exact flatMapIf _ _ methods
  | _ => simp [expected, FileFacts.empty]

theorem foundCoded (l : Limits) (f : FileFacts) (code : IssueCode) :
    (found l f).filter (fun i => i.code = code) = expected l f code := by
  have catches := codedAlike (fun _ => rfl : ∀ line, (emptyCatch line).code = .emptyCatchBlock)
    f.emptyCatchLines code
  have names := codedAlike (fun _ => rfl : ∀ t, (typeNaming t).code = .typeNaming)
    (f.types.filter fun t => !isCapitalized t.simpleName) code
  rw [found, List.filter_append, List.filter_append, methodsCoded, catches, names]
  cases code <;> simp [expected, FileFacts.empty]

theorem methodLine {l : Limits} {m : MethodFacts} {i : FileIssue} (mem : i ∈ methodIssues l m) :
    i.line = m.lineStart := by
  simp only [methodIssues, List.mem_append, List.mem_ite_nil_right, List.mem_singleton] at mem
  obtain (⟨_, rfl⟩ | ⟨_, rfl⟩) | ⟨_, rfl⟩ := mem <;> rfl

theorem methodsAt (l : Limits) (methods : List MethodFacts) (line : Nat) :
    (methods.flatMap (methodIssues l)).filter (fun i => i.line = line) =
      (methods.filter fun m => m.lineStart = line).flatMap (methodIssues l) := by
  induction methods with
  | nil => rfl
  | cons m methods ih =>
    rw [List.flatMap_cons, List.filter_append, ih]
    by_cases here : m.lineStart = line
    · have all : (methodIssues l m).filter (fun i => i.line = line) = methodIssues l m :=
        List.filter_eq_self.mpr fun i mem => by simp [methodLine mem, here]
      simp [all, here]
    · have none : (methodIssues l m).filter (fun i => i.line = line) = [] :=
        List.filter_eq_nil_iff.mpr fun i mem => by simp [methodLine mem, here]
      simp [none, here]

theorem foundAt (l : Limits) (f : FileFacts) (line : Nat) :
    (found l f).filter (fun i => i.line = line) =
      (f.methods.filter fun m => m.lineStart = line).flatMap (methodIssues l) ++
        (f.emptyCatchLines.filter fun c => c = line).map emptyCatch ++
        (f.types.filter fun t => t.line = line && !isCapitalized t.simpleName).map typeNaming := by
  rw [found, List.filter_append, List.filter_append, methodsAt, List.filter_map, List.filter_map,
    List.filter_filter]
  rfl

def mark (i : FileIssue) : IssueCode × Nat := (i.code, i.line)

structure Raised (low high : Limits) : Prop where
  complexity : low.complexity ≤ high.complexity
  lines : low.lines ≤ high.lines
  parameters : low.parameters ≤ high.parameters

theorem fewerIf {β : Type} {p q : Prop} [Decidable p] [Decidable q] (weaker : q → p) (x : β) :
    (if q then [x] else []).Sublist (if p then [x] else []) := by
  by_cases h : q
  · simp [h, weaker h]
  · simp [h]

theorem Raised.methodMarks {low high : Limits} (raised : Raised low high) (m : MethodFacts) :
    ((methodIssues high m).map mark).Sublist ((methodIssues low m).map mark) := by
  have marked : ∀ l, (methodIssues l m).map mark =
      (if l.complexity < m.complexity then [(.highComplexity, m.lineStart)] else []) ++
        (if l.lines < m.lineCount then [(.longMethod, m.lineStart)] else []) ++
        (if l.parameters < m.parameterCount then [(.tooManyParameters, m.lineStart)] else []) := by
    intro l
    simp only [methodIssues, List.map_append, apply_ite (List.map mark), List.map_nil, List.map_cons]
    rfl
  rw [marked, marked]
  exact ((fewerIf (Nat.lt_of_le_of_lt raised.complexity) _).append
    (fewerIf (Nat.lt_of_le_of_lt raised.lines) _)).append
    (fewerIf (Nat.lt_of_le_of_lt raised.parameters) _)

theorem Raised.foundMarks {low high : Limits} (raised : Raised low high) (f : FileFacts) :
    ((found high f).map mark).Sublist ((found low f).map mark) := by
  have methods : ∀ ms : List MethodFacts, ((ms.flatMap (methodIssues high)).map mark).Sublist
      ((ms.flatMap (methodIssues low)).map mark) := by
    intro ms
    induction ms with
    | nil => exact .refl _
    | cons m ms ih =>
      rw [List.flatMap_cons, List.flatMap_cons, List.map_append, List.map_append]
      exact (raised.methodMarks m).append ih
  simp only [found, List.map_append]
  exact ((methods f.methods).append (.refl _)).append (.refl _)

end FileCheck

open FileCheck

theorem capitalizedIff {name : String} :
    isCapitalized name = true ↔ ∃ c rest, name.toList = c :: rest ∧
      if c.toNat < 128 then 'A' ≤ c ∧ c ≤ 'Z'
      else ∃ first last step, (first, last, step) ∈ Text.capitalRuns ∧ first ≤ c.toNat ∧
        c.toNat ≤ last ∧ (c.toNat - first) % step = 0 := by
  unfold isCapitalized
  cases name.toList with
  | nil => simp
  | cons c rest =>
    simp only [List.head?_cons, Option.any_some, Text.isCapital, List.cons.injEq]
    have ascii : c.isUpper = true ↔ 'A' ≤ c ∧ c ≤ 'Z' := decide_eq_true_iff
    split
    · next small => simp [ascii, small]
    · next large => simp [Text.inRun, and_assoc, large]

end JavaAudit
