import JavaAudit.Processing
import Mathlib.Data.List.Basic
import Mathlib.Data.Nat.SuccPred

/-! Several workers on one list of items. Each of them takes an item through the same stages: it
looks at the token, does the work, takes a number from the common counter and reports it. In between
the others may take any steps, and the run may be cancelled at any time. -/
namespace JavaAudit.Processing

variable {α β : Type}

inductive Stage (β : Type) where
  | waiting
  | admitted
  | worked (result : Except AuditError β)
  | numbered (result : Except AuditError β) (number : Nat)
  | finished (result : Except AuditError β)

namespace Stage

def result? : Stage β → Option (Except AuditError β)
  | waiting | admitted => none
  | worked r | numbered r _ | finished r => some r

def untold? : Stage β → Option Nat
  | numbered _ n => some n
  | _ => none

def isCounted : Stage β → Bool
  | numbered .. | finished _ => true
  | _ => false

def isFinished : Stage β → Bool
  | finished _ => true
  | _ => false

def left : Stage β → Nat
  | waiting => 4
  | admitted => 3
  | worked _ => 2
  | numbered .. => 1
  | finished _ => 0

/-- The next stage of an item, the counter after it and what is reported. An item that is refused
is counted and reported too. -/
def next (work : α → β) (total : Nat) (token : Token) (counter : Nat) (item : α) :
    Stage β → Option (Stage β × Nat × List Progress)
  | waiting => match token.check with
      | .ok _ => some (admitted, counter, [])
      | .error e => some (worked (.error e), counter, [])
  | admitted => some (worked (.ok (work item)), counter, [])
  | worked r => some (numbered r (counter + 1), counter + 1, [])
  | numbered r n => some (finished r, counter, [report n total])
  | finished _ => none

end Stage

structure Floor (α β : Type) where
  token : Token
  counter : Nat
  tasks : List (α × Stage β)
  reports : List Progress

inductive Turn where
  | cancel
  | advance (task : Nat)
  deriving DecidableEq

namespace Floor

def start (token : Token) (items : List α) : Floor α β := ⟨token, 0, items.map (·, .waiting), []⟩

def step (work : α → β) (f : Floor α β) : Turn → Option (Floor α β)
  | .cancel => some { f with token := ⟨true⟩ }
  | .advance i => do
      let (item, stage) ← f.tasks[i]?
      let (stage, counter, told) ← stage.next work f.tasks.length f.token f.counter item
      some ⟨f.token, counter, f.tasks.set i (item, stage), f.reports ++ told⟩

def run (work : α → β) : Floor α β → List Turn → Option (Floor α β)
  | f, [] => some f
  | f, turn :: turns => (f.step work turn).bind (run work · turns)

/-- What the caller gets once nobody is at work on an item: all results in the order of the items,
or one of the failures. Items that nobody has begun may be left out only after a failure. -/
inductive Returns (f : Floor α β) : Except AuditError (List β) → Prop where
  | all {results : List β} (done : f.tasks.map Prod.snd = results.map (.finished <| .ok ·)) :
      Returns f (.ok results)
  | failure {item : α} {e : AuditError} (idle : ∀ t ∈ f.tasks, t.2 = .waiting ∨ t.2.isFinished)
      (failed : (item, .finished (.error e)) ∈ f.tasks) : Returns f (.error e)

inductive Moves (work : α → β) (f : Floor α β) (item : α) :
    Stage β → Stage β → Nat → List Progress → Prop where
  | enter (alive : f.token.cancelled = false) : Moves work f item .waiting .admitted f.counter []
  | refuse (stopped : f.token.cancelled = true) :
      Moves work f item .waiting (.worked (.error .interrupted)) f.counter []
  | work : Moves work f item .admitted (.worked (.ok (work item))) f.counter []
  | number (r : Except AuditError β) :
      Moves work f item (.worked r) (.numbered r (f.counter + 1)) (f.counter + 1) []
  | tell (r : Except AuditError β) (n : Nat) :
      Moves work f item (.numbered r n) (.finished r) f.counter [report n f.tasks.length]

theorem movesOfNext {work : α → β} {f : Floor α β} {item : α} {stage after : Stage β}
    {counter : Nat} {told : List Progress}
    (moved : stage.next work f.tasks.length f.token f.counter item = some (after, counter, told)) :
    Moves work f item stage after counter told := by
  cases stage with
  | waiting =>
    cases flag : f.token.cancelled with
    | false =>
      simp only [Stage.next, Token.check, flag] at moved
      cases moved
      exact .enter flag
    | true =>
      simp only [Stage.next, Token.check, flag] at moved
      cases moved
      exact .refuse flag
  | admitted =>
    cases moved
    exact .work
  | worked r =>
    cases moved
    exact .number r
  | numbered r n =>
    cases moved
    exact .tell r n
  | finished r => simp [Stage.next] at moved

theorem stepCases {work : α → β} {f g : Floor α β} {turn : Turn}
    (stepped : f.step work turn = some g) :
    (turn = .cancel ∧ g = { f with token := ⟨true⟩ }) ∨
    ∃ front item stage back after counter told, turn = .advance front.length ∧
      f.tasks = front ++ (item, stage) :: back ∧ Moves work f item stage after counter told ∧
      g = ⟨f.token, counter, front ++ (item, after) :: back, f.reports ++ told⟩ := by
  cases turn with
  | cancel => exact .inl ⟨rfl, (Option.some.inj stepped).symm⟩
  | advance i =>
    right
    simp only [step, Option.bind_eq_bind, Option.bind_eq_some_iff] at stepped
    obtain ⟨⟨item, stage⟩, found, ⟨after, counter, told⟩, moved, made⟩ := stepped
    obtain ⟨inside, same⟩ := List.getElem?_eq_some_iff.mp found
    have parts : f.tasks = f.tasks.take i ++ (item, stage) :: f.tasks.drop (i + 1) := by
      rw [← same, ← List.drop_eq_getElem_cons inside, List.take_append_drop]
    refine ⟨f.tasks.take i, item, stage, f.tasks.drop (i + 1), after, counter, told, ?_, parts,
      movesOfNext moved, ?_⟩
    · rw [List.length_take, Nat.min_eq_left (Nat.le_of_lt inside)]
    · rw [← Option.some.inj made, List.set_eq_take_append_cons_drop, if_pos inside]

theorem runKeeps {work : α → β} {holds : Floor α β → Prop}
    (kept : ∀ f turn g, f.step work turn = some g → holds f → holds g) {f g : Floor α β}
    {turns : List Turn} (ran : f.run work turns = some g) (first : holds f) : holds g := by
  induction turns generalizing f with
  | nil =>
    cases ran
    exact first
  | cons turn turns ih =>
    obtain ⟨between, stepped, rest⟩ := Option.bind_eq_some_iff.mp ran
    exact ih rest (kept f turn between stepped first)

structure Consistent (work : α → β) (items : List α) (f : Floor α β) : Prop where
  sameItems : f.tasks.map Prod.fst = items
  results : ∀ t ∈ f.tasks, ∀ r ∈ t.2.result?,
    r = .ok (work t.1) ∨ r = .error .interrupted ∧ f.token.cancelled = true
  counted : f.counter = f.tasks.countP (·.2.isCounted)
  numbers : (f.tasks.filterMap (·.2.untold?) ++ f.reports.map Progress.current).Perm
    (List.range' 1 f.counter)
  told : ∀ p ∈ f.reports, p = report p.current items.length

theorem startConsistent (work : α → β) (token : Token) (items : List α) :
    Consistent work items (start token items) where
  sameItems := by simp [start, Function.comp_def]
  results := by simp [start, Stage.result?]
  counted := by simp [start, List.countP_map, Function.comp_def, Stage.isCounted]
  numbers := by simp [start, List.filterMap_map, Stage.untold?]
  told := by simp [start]

section Moves
variable {work : α → β} {f : Floor α β} {item : α} {stage after : Stage β} {counter : Nat}
  {told : List Progress} (moves : Moves work f item stage after counter told)
include moves

theorem movesResult {r : Except AuditError β} (found : r ∈ after.result?) :
    r ∈ stage.result? ∨ r = .ok (work item) ∨
      r = .error .interrupted ∧ f.token.cancelled = true := by
  cases moves with
  | enter alive => simp [Stage.result?] at found
  | refuse stopped => exact .inr (.inr ⟨(Option.some.inj found).symm, stopped⟩)
  | work => exact .inr (.inl (Option.some.inj found).symm)
  | number r | tell r n => exact .inl found

theorem movesCounted {front back : List (α × Stage β)}
    (counted : f.counter = (front ++ (item, stage) :: back).countP (·.2.isCounted)) :
    counter = (front ++ (item, after) :: back).countP (·.2.isCounted) := by
  rw [List.countP_append, List.countP_cons] at counted ⊢
  cases moves with
  | number r =>
    rw [counted]
    rfl
  | _ => exact counted

theorem movesNumbers {front back : List (α × Stage β)}
    (numbers : ((front ++ (item, stage) :: back).filterMap (·.2.untold?) ++
      f.reports.map Progress.current).Perm (List.range' 1 f.counter)) :
    ((front ++ (item, after) :: back).filterMap (·.2.untold?) ++
      (f.reports ++ told).map Progress.current).Perm (List.range' 1 counter) := by
  have around (s : Stage β) : (front ++ (item, s) :: back).filterMap (·.2.untold?) =
      front.filterMap (·.2.untold?) ++ (s.untold?.toList ++ back.filterMap (·.2.untold?)) := by
    cases own : s.untold? <;> simp [own]
  rw [around, List.perm_iff_count] at numbers
  rw [around, List.perm_iff_count]
  intro n
  have same := numbers n
  -- A number that is taken is one more, and one that is reported goes over to the reports.
  cases moves with
  | number r =>
    rw [List.range'_1_concat, Nat.add_comm 1]
    simp only [Stage.untold?, Option.toList_none, Option.toList_some, List.append_nil,
      List.nil_append, List.count_append] at same ⊢
    omega
  | tell r number =>
    simp only [Stage.untold?, Option.toList_none, Option.toList_some, List.map_append,
      List.map_cons, List.map_nil, report, List.nil_append, List.count_append] at same ⊢
    omega
  | _ =>
    rw [List.append_nil]
    exact same

end Moves

theorem stepConsistent {work : α → β} {items : List α} (f : Floor α β) (turn : Turn) (g : Floor α β)
    (stepped : f.step work turn = some g) (before : Consistent work items f) :
    Consistent work items g := by
  rcases stepCases stepped with ⟨-, rfl⟩ |
    ⟨front, item, stage, back, after, counter, told, -, tasks, moves, rfl⟩
  · exact { before with
      results := fun t mem r found => (before.results t mem r found).imp_right (⟨·.1, rfl⟩) }
  · obtain ⟨names, results, counted, numbers, reported⟩ := before
    have size : f.tasks.length = items.length := by rw [← names, List.length_map]
    rw [tasks] at names results counted numbers
    refine ⟨by simpa using names, ?_, movesCounted moves counted, movesNumbers moves numbers, ?_⟩
    · intro t mem r found
      have own : (item, stage) ∈ front ++ (item, stage) :: back := by simp
      rcases List.mem_append.mp mem with old | old
      · exact results t (List.mem_append_left _ old) r found
      · rcases List.mem_cons.mp old with rfl | old
        · exact (movesResult moves found).elim (results _ own r) id
        · exact results t (by simp [old]) r found
    · cases moves with
      | tell r n => simpa [size, report, or_imp, forall_and] using reported
      | _ => simpa using reported

theorem allResults {work : α → β} {tasks : List (α × Stage β)} {results : List β}
    (own : ∀ t ∈ tasks, ∀ b, t.2 = .finished (.ok b) → b = work t.1)
    (done : tasks.map Prod.snd = results.map (.finished <| .ok ·)) :
    results = (tasks.map Prod.fst).map work := by
  induction tasks generalizing results with
  | nil => simpa using done
  | cons t tasks ih =>
    cases results with
    | nil => simp at done
    | cons b results =>
      obtain ⟨first, rest⟩ := List.cons.inj done
      have head : b = work t.1 := own t List.mem_cons_self b first
      have tail := ih (fun t mem => own t (List.mem_cons_of_mem _ mem)) rest
      rw [List.map_cons, List.map_cons, head, tail]

theorem Consistent.returned {work : α → β} {items : List α} {f : Floor α β}
    (sound : Consistent work items f) {result : Except AuditError (List β)}
    (returned : f.Returns result) :
    result = .ok (items.map work) ∨ result = .error .interrupted ∧ f.token.cancelled = true := by
  cases returned with
  | @all results done =>
    left
    have own : ∀ t ∈ f.tasks, ∀ b, t.2 = .finished (.ok b) → b = work t.1 := by
      intro t mem b finished
      have given := sound.results t mem (.ok b) (by rw [finished]; rfl)
      simpa using given
    rw [allResults own done, sound.sameItems]
  | @failure item e idle failed =>
    right
    have given := sound.results _ failed (.error e) rfl
    simpa using given

theorem Returns.idle {f : Floor α β} {result : Except AuditError (List β)}
    (returned : f.Returns result) : ∀ t ∈ f.tasks, t.2 = .waiting ∨ t.2.isFinished := by
  cases returned with
  | failure idle failed => exact idle
  | all done =>
    intro t mem
    have stage := List.mem_map_of_mem (f := Prod.snd) mem
    rw [done] at stage
    obtain ⟨b, -, same⟩ := List.mem_map.mp stage
    exact .inr (by rw [← same]; rfl)

theorem Consistent.reported {work : α → β} {items : List α} {f : Floor α β}
    (sound : Consistent work items f) {result : Except AuditError (List β)}
    (returned : f.Returns result) :
    f.reports.Perm ((List.range' 1 (f.tasks.countP (·.2.isFinished))).map
      (report · items.length)) := by
  have untold : f.tasks.filterMap (·.2.untold?) = [] := by
    rw [List.filterMap_eq_nil_iff]
    intro t mem
    rcases returned.idle t mem with waiting | finished
    · rw [waiting]; rfl
    · cases stage : t.2 <;> simp_all [Stage.isFinished, Stage.untold?]
  have finished : f.tasks.countP (·.2.isFinished) = f.counter := by
    rw [sound.counted]
    apply List.countP_congr
    intro t mem
    rcases returned.idle t mem with waiting | finished
    · rw [waiting]; rfl
    · cases stage : t.2 <;> simp_all [Stage.isFinished, Stage.isCounted]
  have numbers := sound.numbers
  rw [untold, List.nil_append] at numbers
  have same : f.reports = (f.reports.map Progress.current).map (report · items.length) := by
    rw [List.map_map]
    exact (List.map_id _).symm.trans (List.map_congr_left sound.told)
  rw [finished, same]
  exact numbers.map _

structure Refusing (f : Floor α β) : Prop where
  stopped : f.token.cancelled = true
  none : ∀ t ∈ f.tasks, t.2 ≠ .admitted ∧ ∀ b, t.2.result? ≠ some (.ok b)

theorem stepRefusing {work : α → β} (f : Floor α β) (turn : Turn) (g : Floor α β)
    (stepped : f.step work turn = some g) (before : Refusing f) : Refusing g := by
  rcases stepCases stepped with ⟨-, rfl⟩ |
    ⟨front, item, stage, back, after, counter, told, -, tasks, moves, rfl⟩
  · exact ⟨rfl, before.none⟩
  · refine ⟨before.stopped, ?_⟩
    have old := before.none
    rw [tasks] at old
    have own := old (item, stage) (by simp)
    intro t mem
    rcases List.mem_append.mp mem with within | within
    · exact old t (List.mem_append_left _ within)
    · rcases List.mem_cons.mp within with rfl | within
      · cases moves with
        | enter alive => simp [before.stopped] at alive
        | work => exact absurd rfl own.1
        | refuse | number | tell => simp_all [Stage.result?]
      · exact old t (by simp [within])

theorem Refusing.returned {f : Floor α β} (refusing : Refusing f) (some : f.tasks ≠ [])
    {result : Except AuditError (List β)} (returned : f.Returns result) :
    ∀ results, result ≠ .ok results := by
  rintro results rfl
  cases returned with
  | all done =>
    obtain ⟨t, tasks, same⟩ := List.exists_cons_of_ne_nil some
    cases results with
    | nil => simp [same] at done
    | cons b results =>
      rw [same, List.map_cons, List.map_cons] at done
      have first := (List.cons.inj done).1
      exact (refusing.none t (by simp [same])).2 b (by rw [first]; rfl)

def left (f : Floor α β) : Nat := (f.tasks.map (·.2.left)).sum

theorem stepLeft {work : α → β} {f g : Floor α β} {i : Nat}
    (stepped : f.step work (.advance i) = some g) : g.left < f.left := by
  rcases stepCases stepped with ⟨no, -⟩ |
    ⟨front, item, stage, back, after, counter, told, -, tasks, moves, rfl⟩
  · cases no
  · unfold left
    rw [tasks]
    cases moves <;> simp [Stage.left]

theorem runLeft {work : α → β} {f g : Floor α β} {turns : List Turn}
    (ran : f.run work turns = some g) : turns.countP (· ≠ .cancel) + g.left ≤ f.left := by
  induction turns generalizing f with
  | nil =>
    cases ran
    simp
  | cons turn turns ih =>
    obtain ⟨between, stepped, rest⟩ := Option.bind_eq_some_iff.mp ran
    have later := ih rest
    cases turn with
    | cancel =>
      cases stepped
      simpa [left] using later
    | advance i =>
      have less := stepLeft stepped
      rw [List.countP_cons_of_pos (by simp)]
      omega

theorem stuckFinished {work : α → β} {f : Floor α β}
    (stuck : ∀ i, f.step work (.advance i) = none) : ∀ t ∈ f.tasks, ∃ r, t.2 = .finished r := by
  intro t mem
  obtain ⟨i, inside, same⟩ := List.getElem_of_mem mem
  have still := stuck i
  simp only [step, List.getElem?_eq_getElem inside, same, Option.bind_eq_bind, Option.bind_some,
    Option.bind_eq_none_iff] at still
  cases stage : t.2 with
  | finished r => exact ⟨r, rfl⟩
  | waiting =>
    cases flag : f.token.cancelled <;> simp [stage, Stage.next, Token.check, flag] at still
  | _ => simp [stage, Stage.next] at still

theorem finishedResults {tasks : List (α × Stage β)}
    (done : ∀ t ∈ tasks, ∃ b, t.2 = .finished (.ok b)) :
    ∃ results : List β, tasks.map Prod.snd = results.map (.finished <| .ok ·) := by
  induction tasks with
  | nil => exact ⟨[], rfl⟩
  | cons t tasks ih =>
    obtain ⟨b, first⟩ := done t List.mem_cons_self
    obtain ⟨results, rest⟩ := ih fun t mem => done t (List.mem_cons_of_mem _ mem)
    exact ⟨b :: results, by rw [List.map_cons, List.map_cons, first, rest]⟩

theorem stuckReturns {work : α → β} {f : Floor α β}
    (stuck : ∀ i, f.step work (.advance i) = none) : ∃ result, f.Returns result := by
  have finished := stuckFinished stuck
  by_cases failed : ∃ t ∈ f.tasks, ∃ e, t.2 = .finished (.error e)
  · obtain ⟨⟨item, stage⟩, mem, e, rfl⟩ := failed
    refine ⟨.error e, .failure (fun t mem => ?_) mem⟩
    obtain ⟨r, same⟩ := finished t mem
    exact .inr (by rw [same]; rfl)
  · have done : ∀ t ∈ f.tasks, ∃ b, t.2 = .finished (.ok b) := by
      intro t mem
      obtain ⟨r, same⟩ := finished t mem
      cases r with
      | ok b => exact ⟨b, same⟩
      | error e => exact absurd ⟨t, mem, e, same⟩ failed
    obtain ⟨results, same⟩ := finishedResults done
    exact ⟨.ok results, .all same⟩

theorem runToken {work : α → β} {f g : Floor α β} {turns : List Turn}
    (ran : f.run work turns = some g) (stopped : g.token.cancelled = true) :
    f.token.cancelled = true ∨ .cancel ∈ turns := by
  induction turns generalizing f with
  | nil =>
    cases ran
    exact .inl stopped
  | cons turn turns ih =>
    obtain ⟨between, stepped, rest⟩ := Option.bind_eq_some_iff.mp ran
    rcases stepCases stepped with ⟨rfl, -⟩ | ⟨_, _, _, _, _, _, _, rfl, _, _, rfl⟩
    · exact .inr List.mem_cons_self
    · exact (ih rest).imp_right (List.mem_cons_of_mem _)

end Floor

end JavaAudit.Processing
