import JavaAudit.Analysis
import JavaAudit.Proofs.Processing.Workers

/-! Whatever the order in which workers take their steps and whenever the run is cancelled, the
files of a project are processed completely or not at all. -/
namespace JavaAudit.Processing

variable {α β : Type}

namespace Floor

theorem stepAt (work : α → β) (token : Token) (counter : Nat) (front back : List (α × Stage β))
    (item : α) (stage : Stage β) (told : List Progress) :
    step work ⟨token, counter, front ++ (item, stage) :: back, told⟩ (.advance front.length) =
      (stage.next work (front.length + (back.length + 1)) token counter item).map
        fun (after, counter, more) =>
          ⟨token, counter, front ++ (item, after) :: back, told ++ more⟩ := by
  simp only [step, Option.bind_eq_bind]
  rw [List.getElem?_append_right (Nat.le_refl _), Nat.sub_self]
  simp [Option.map_eq_bind]

theorem runAppend (work : α → β) (f : Floor α β) (turns more : List Turn) :
    f.run work (turns ++ more) = (f.run work turns).bind (run work · more) := by
  induction turns generalizing f with
  | nil => rfl
  | cons turn turns ih => simp only [List.cons_append, run, Option.bind_assoc, ih]

def inOrder (first : Nat) : Nat → List Turn
  | 0 => []
  | n + 1 => List.replicate 4 (.advance first) ++ inOrder (first + 1) n

theorem inOrderQuiet (first n : Nat) : .cancel ∉ inOrder first n := by
  induction n generalizing first with
  | zero => simp [inOrder]
  | succ n ih => simp [inOrder, ih]

theorem oneInOrder (work : α → β) {token : Token} (alive : token.cancelled = false) (item : α)
    (front back : List (α × Stage β)) (counter : Nat) (told : List Progress) :
    run work ⟨token, counter, front ++ (item, .waiting) :: back, told⟩
        (List.replicate 4 (.advance front.length)) =
      some ⟨token, counter + 1, front ++ (item, .finished (.ok (work item))) :: back,
        told ++ [report (counter + 1) (front.length + (back.length + 1))]⟩ := by
  simp [List.replicate, run, stepAt, Stage.next, Token.check, alive]

theorem allInOrder (work : α → β) {token : Token} (alive : token.cancelled = false)
    (items : List α) (front : List (α × Stage β)) (told : List Progress) :
    run work ⟨token, front.length, front ++ items.map (·, .waiting), told⟩
        (inOrder front.length items.length) =
      some ⟨token, front.length + items.length,
        front ++ items.map (fun item => (item, .finished (.ok (work item)))),
        told ++ (List.range' (front.length + 1) items.length).map
          (report · (front.length + items.length))⟩ := by
  induction items generalizing front told with
  | nil => simp [inOrder, run]
  | cons item items ih =>
    have later := ih (front ++ [(item, .finished (.ok (work item)))])
      (told ++ [report (front.length + 1) (front.length + (items.length + 1))])
    rw [List.length_cons, inOrder, runAppend, List.map_cons, oneInOrder work alive,
      Option.bind_some]
    simpa [Nat.add_assoc, Nat.add_comm 1, List.range'_succ] using later

theorem firstRefused (work : α → β) {token : Token} (stopped : token.cancelled = true) (item : α)
    (items : List α) :
    run work (start token (item :: items)) (List.replicate 3 (.advance 0)) =
      some ⟨token, 1, (item, .finished (.error .interrupted)) :: items.map (·, .waiting),
        [report 1 (items.length + 1)]⟩ := by
  have at0 := fun counter => @stepAt α β work token counter []
  simp only [List.nil_append, List.length_nil, Nat.zero_add] at at0
  simp [List.replicate, run, start, at0, Stage.next, Token.check, stopped]

theorem startRefusing {token : Token} (stopped : token.cancelled = true) (items : List α) :
    Refusing (start token items : Floor α β) := by
  refine ⟨stopped, ?_⟩
  intro t mem
  obtain ⟨_, _, rfl⟩ := List.mem_map.mp mem
  exact ⟨nofun, nofun⟩

theorem runRefusing {work : α → β} {token : Token} {items : List α} {turns : List Turn}
    {g : Floor α β} (ran : (start token items).run work turns = some g)
    (early : token.cancelled = true ∨ turns.head? = some .cancel) : Refusing g := by
  rcases early with stopped | first
  · exact runKeeps stepRefusing ran (startRefusing stopped items)
  · obtain ⟨later, rfl⟩ := List.head?_eq_some_iff.mp first
    -- The first turn makes the token one that was cancelled from the beginning.
    have ran : (start ⟨true⟩ items).run work later = some g := ran
    exact runKeeps stepRefusing ran (startRefusing rfl items)

end Floor

def guarded (work : α → β) (token : Token) (item : α) : Except AuditError β × Token :=
  (token.check.map fun _ => work item, token)

theorem guardedAlive (work : α → β) {token : Token} (alive : token.cancelled = false) (item : α) :
    guarded work token item = (.ok (work item), token) := by
  simp [guarded, Token.check, alive, Except.map]

theorem guardedStopped (work : α → β) {token : Token} (stopped : token.cancelled = true)
    (item : α) : guarded work token item = (.error .interrupted, token) := by
  simp [guarded, Token.check, stopped, Except.map]

theorem runFromAlive (work : α → β) {token : Token} (alive : token.cancelled = false)
    (total done : Nat) (items : List α) :
    runFrom (guarded work) total done token items =
      ⟨.ok (items.map work), (List.range' (done + 1) items.length).map (report · total), token⟩ := by
  induction items generalizing done with
  | nil => rfl
  | cons item items ih =>
    simp only [runFrom, guardedAlive work alive, ih]
    rfl

theorem runStopped (work : α → β) {token : Token} (stopped : token.cancelled = true) (item : α)
    (items : List α) :
    run (guarded work) token (item :: items) =
      ⟨.error .interrupted, [report 1 (items.length + 1)], token⟩ := by
  simp [run, runFrom, guardedStopped work stopped]

theorem runScheduled (work : α → β) (token : Token) (items : List α) :
    ∃ turns floor, .cancel ∉ turns ∧ (Floor.start token items).run work turns = some floor ∧
      floor.Returns (run (guarded work) token items).result ∧
      floor.reports = (run (guarded work) token items).reports := by
  cases flag : token.cancelled with
  | false =>
    have ran := Floor.allInOrder work flag items [] []
    refine ⟨_, _, Floor.inOrderQuiet _ _, ran, ?_, ?_⟩
    · rw [run, runFromAlive work flag]
      exact .all (by simp)
    · rw [run, runFromAlive work flag]
      simp
  | true =>
    cases items with
    | nil => exact ⟨[], _, by simp, rfl, .all rfl, rfl⟩
    | cons item items =>
      rw [runStopped work flag]
      refine ⟨_, _, by simp, Floor.firstRefused work flag item items, ?_, rfl⟩
      refine .failure ?_ List.mem_cons_self
      intro t mem
      rcases List.mem_cons.mp mem with rfl | rest
      · exact .inr rfl
      · obtain ⟨_, _, rfl⟩ := List.mem_map.mp rest
        exact .inl rfl

end JavaAudit.Processing

namespace JavaAudit

open Processing

theorem everyScheduleAllOrNothing (files : FileTree) (parse : String → Source.Outcome)
    (s : Settings) (token : Token) (paths : List (List String)) :
    let work := processFile files parse s
    let plain := (processFiles files parse s {} paths).result
    plain = .ok (paths.map work) ∧
    (∀ turns floor, (Floor.start token paths).run work turns = some floor →
      turns.countP (· ≠ .cancel) ≤ 4 * paths.length ∧
      ((∀ i, floor.step work (.advance i) = none) → ∃ result, floor.Returns result) ∧
      ∀ result, floor.Returns result →
        (result = plain ∨
          result = .error .interrupted ∧ (token.cancelled = true ∨ .cancel ∈ turns)) ∧
        (paths ≠ [] → token.cancelled = true ∨ turns.head? = some .cancel →
          result = .error .interrupted) ∧
        ∃ k ≤ paths.length, k = floor.tasks.countP (·.2.isFinished) ∧
          floor.reports.Perm ((List.range' 1 k).map (report · paths.length)) ∧
          (floor.reports.map Progress.current).Perm (List.range' 1 k)) ∧
    ∃ turns floor, .cancel ∉ turns ∧ (Floor.start token paths).run work turns = some floor ∧
      floor.Returns (processFiles files parse s token paths).result ∧
      floor.reports = (processFiles files parse s token paths).reports := by
  intro work plain
  have sequential : plain = .ok (paths.map work) :=
    congrArg Outcome.result (runFromAlive work rfl paths.length 0 paths)
  refine ⟨sequential, ?_, runScheduled work token paths⟩
  intro turns floor ran
  have sound : floor.Consistent work paths :=
    Floor.runKeeps Floor.stepConsistent ran (Floor.startConsistent work token paths)
  have size : floor.tasks.length = paths.length := by rw [← sound.sameItems, List.length_map]
  refine ⟨?_, Floor.stuckReturns, ?_⟩
  · have atMost := Floor.runLeft ran
    have all : (Floor.start token paths : Floor _ ProcessedFile).left = 4 * paths.length := by
      simp [Floor.left, Floor.start, Function.comp_def, Stage.left, Nat.mul_comm]
    omega
  intro result returned
  have outcome := sound.returned returned
  refine ⟨?_, ?_, _, size ▸ List.countP_le_length, rfl, sound.reported returned, ?_⟩
  · rw [sequential]
    exact outcome.imp_right fun failed => ⟨failed.1, Floor.runToken ran failed.2⟩
  · intro some early
    have none := (Floor.runRefusing ran early).returned (by
      rw [← List.length_pos_iff, size]
      exact List.length_pos_iff.mpr some) returned
    exact (outcome.resolve_left (none _)).1
  · have numbers := (sound.reported returned).map Progress.current
    simpa [Function.comp_def, report] using numbers

/-- When the run is cancelled one worker has passed the check and the other has not, and their
reports come in the wrong order. A run that is cancelled first does nothing. -/
theorem everyScheduleAllOrNothingOvertaken :
    let work := processFile ⟨.directory [], []⟩ (fun _ => .failed "no") {}
    let begun : Floor (List String) ProcessedFile := .start {} [["A.java"], ["B.java"]]
    let overtaken : List Turn := [.advance 0, .cancel, .advance 1, .advance 1, .advance 0,
      .advance 0, .advance 0, .advance 1]
    let halfDone : Floor (List String) ProcessedFile :=
      ⟨⟨true⟩, 2, [(["A.java"], .finished (.ok (work ["A.java"]))),
        (["B.java"], .finished (.error .interrupted))], [report 2 2, report 1 2]⟩
    let early : List Turn := [.cancel, .advance 1, .advance 1, .advance 1]
    let undone : Floor (List String) ProcessedFile :=
      ⟨⟨true⟩, 1, [(["A.java"], .waiting), (["B.java"], .finished (.error .interrupted))],
        [report 1 2]⟩
    (begun.run work overtaken = some halfDone ∧ halfDone.Returns (.error .interrupted) ∧
      (halfDone.reports.map Progress.current).Perm (List.range' 1 2)) ∧
    begun.run work early = some undone ∧ undone.Returns (.error .interrupted) ∧
      ∀ result, undone.Returns result → result = .error .interrupted := by
  intro work begun overtaken halfDone early undone
  have halfReturned : halfDone.Returns (.error .interrupted) :=
    .failure (by simp [halfDone, Stage.isFinished]) (.tail _ (.head _))
  have undoneReturned : undone.Returns (.error .interrupted) :=
    .failure (by simp [undone, Stage.isFinished]) (.tail _ (.head _))
  obtain ⟨_, every, _⟩ := everyScheduleAllOrNothing ⟨.directory [], []⟩ (fun _ => .failed "no") {}
    {} [["A.java"], ["B.java"]]
  obtain ⟨_, _, half⟩ := every overtaken halfDone rfl
  obtain ⟨_, _, none⟩ := every early undone rfl
  obtain ⟨_, _, k, _, count, _, numbers⟩ := half _ halfReturned
  refine ⟨⟨rfl, halfReturned, ?_⟩, rfl, undoneReturned, ?_⟩
  · rw [count] at numbers
    exact numbers
  · intro result returned
    exact (none result returned).2.1 (by simp) (.inr rfl)

end JavaAudit
