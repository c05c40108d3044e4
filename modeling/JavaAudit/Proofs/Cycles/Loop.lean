import JavaAudit.Proofs.Cycles.Order

/-! One search as a loop. From a declared type it comes to an end, having entered each type that it
can reach once and looked at each use of such a type once. At every step path, frames and colours say
the same, so a type in progress is found on the path and a type that is left is not entered again. -/
namespace JavaAudit.Cycles
open Relation (ReflTransGen)
open scoped List

namespace Search

def looksAt? (s : Search) : Option (String × String) :=
  match s.frames with
  | ⟨node, name :: _⟩ :: _ => some (node, name)
  | _ => none

def enters? (s : Search) : Option String :=
  s.looksAt?.bind fun use => if s.colours.get? use.2 = none then some use.2 else none

end Search

inductive Loop (next : String → List String) (withoutRepeats : Bool) :
    Search → Findings → List Search → Findings → Prop where
  | ended {s f} (stopped : step next withoutRepeats s f = none) : Loop next withoutRepeats s f [] f
  | again {s t f h states found} (stepped : step next withoutRepeats s f = some (t, h))
      (rest : Loop next withoutRepeats t h states found) :
      Loop next withoutRepeats s f (s :: states) found

section Loop

variable {next : String → List String} {names : List String} {root : String} {withoutRepeats : Bool}

theorem stepMove {s t : Search} {f h : Findings}
    (stepped : step next withoutRepeats s f = some (t, h)) : ∃ found, Move next s found t := by
  rcases stepMoves next s with ⟨_, ended⟩ | ⟨found, u, move, moved⟩
  · rw [ended] at stepped
    contradiction
  · rw [moved] at stepped
    cases stepped
    exact ⟨found, move⟩

theorem loopEnds (withoutRepeats : Bool) (closed : ∀ a, ∀ b ∈ next a, b ∈ names) {steps : Nat}
    {s : Search} (within : Within names s) (enough : work next names s ≤ steps) (f : Findings) :
    ∃ states, Loop next withoutRepeats s f states (run next withoutRepeats steps s f) := by
  induction steps generalizing s f with
  | zero =>
    have stopped : step next withoutRepeats s f = none := by
      simp [step, idleEnds enough]
    exact ⟨[], .ended stopped⟩
  | succ steps ih =>
    rcases stepMoves next s with ⟨_, ended⟩ | ⟨found, t, move, moved⟩
    · refine ⟨[], ?_⟩
      rw [run, ended]
      exact .ended (ended withoutRepeats f)
    · have less := moveWork within move
      obtain ⟨states, loop⟩ := ih (moveWithin closed within move) (by omega) _
      refine ⟨s :: states, ?_⟩
      rw [run, moved]
      exact .again (moved withoutRepeats f) loop

theorem stepEnters {s t : Search} {f h : Findings} {name : String}
    (stepped : step next withoutRepeats s f = some (t, h)) :
    t.path = s.path ++ [name] ↔ s.enters? = some name := by
  obtain ⟨found, move⟩ := stepMove stepped
  cases move with
  | @leave node below path colours =>
    have shorter : path.dropLast ≠ path ++ [name] := by
      intro same
      have lengths := congrArg List.length same
      simp only [List.length_dropLast, List.length_append, List.length_singleton] at lengths
      omega
    simp [Search.enters?, Search.looksAt?, shorter]
  | enter fresh => simp [Search.enters?, Search.looksAt?, fresh]
  | close reached => simp [Search.enters?, Search.looksAt?, reached]
  | skip left => simp [Search.enters?, Search.looksAt?, left]

theorem entersFresh {s : Search} {name : String} (enters : s.enters? = some name) :
    s.colours.get? name = none := by
  obtain ⟨use, -, same⟩ := Option.bind_eq_some_iff.mp enters
  split at same
  · rename_i fresh
    cases same
    exact fresh
  · contradiction

theorem stoppedEmpty {s : Search} {f : Findings} (stopped : step next withoutRepeats s f = none) :
    s.frames = [] := by
  rcases stepMoves next s with ⟨empty, _⟩ | ⟨_, _, _, moved⟩
  · exact empty
  · rw [moved] at stopped
    contradiction

theorem Loop.keeps {P : Search → List Search → Prop}
    (moveKeeps : ∀ {s t found before}, P s before → Move next s found t → P t (before ++ [s]))
    {s : Search} {f found : Findings} {states before : List Search}
    (loop : Loop next withoutRepeats s f states found) (start : P s before) :
    (∀ front state back, states = front ++ state :: back → P state (before ++ front)) ∧
      ∃ last, last.frames = [] ∧ P last (before ++ states) := by
  induction loop generalizing before with
  | @ended s f stopped =>
    refine ⟨by simp, s, stoppedEmpty stopped, by simpa using start⟩
  | @again s t f h states found stepped rest ih =>
    obtain ⟨closed, move⟩ := stepMove stepped
    obtain ⟨each, last, ended, holds⟩ := ih (moveKeeps start move)
    refine ⟨fun front state back split => ?_, last, ended, by simpa using holds⟩
    cases front with
    | nil =>
      cases split
      simpa using start
    | cons first front =>
      cases split
      simpa using each front state back rfl

def waiting (frames : List Frame) : List (String × String) :=
  frames.flatMap fun frame => frame.pending.map (frame.node, ·)

def usesFrom (next : String → List String) (names : List String) : List (String × String) :=
  names.flatMap fun name => (next name).map (name, ·)

structure Accounts (next : String → List String) (names : List String) (root : String) (s : Search)
    (entered : List String) (looked : List (String × String)) (steps : Nat) : Prop where
  distinct : entered.Nodup
  coloured : ∀ name, name ∈ entered ↔ (s.colours.get? name).isSome = true
  reached : ∀ name ∈ entered, ReflTransGen (Link next names) root name
  shared : looked ++ waiting s.frames ~ usesFrom next entered
  visited : ∀ use ∈ looked, use.2 ∈ entered
  counted : steps + s.frames.length = entered.length + looked.length

theorem startAccounts : Accounts next names root (start next root) [root] [] 0 where
  distinct := List.nodup_singleton root
  coloured := by
    intro name
    by_cases same : name = root <;> simp [start, same]
  reached := by
    intro name mem
    rw [List.mem_singleton.mp mem]
  shared := by simp [start, waiting, usesFrom]
  visited := by simp
  counted := rfl

section Moving

variable {node name : String} {pending path : List String} {below : List Frame}
  {colours : NameMap Colour} {entered : List String} {looked : List (String × String)} {steps : Nat}

theorem Accounts.leave
    (coherent : Coherent next names root ⟨⟨node, []⟩ :: below, path, colours⟩)
    (accounts : Accounts next names root ⟨⟨node, []⟩ :: below, path, colours⟩ entered looked steps) :
    Accounts next names root ⟨below, path.dropLast, colours.insert node .done⟩ entered looked
      (steps + 1) := by
  obtain ⟨distinct, coloured, reached, shared, visited, counted⟩ := accounts
  refine ⟨distinct, fun a => ?_, reached, by simpa [waiting] using shared, visited, ?_⟩
  · have onPath := (coherent.coloured node).mpr coherent.nodeOnPath
    rw [visitedInsert, coloured]
    refine (or_iff_right_of_imp ?_).symm
    rintro rfl
    simp [onPath]
  · simp only [List.length_cons] at counted ⊢
    omega

theorem Accounts.enter (fresh : colours.get? name = none)
    (coherent : Coherent next names root ⟨⟨node, name :: pending⟩ :: below, path, colours⟩)
    (accounts : Accounts next names root ⟨⟨node, name :: pending⟩ :: below, path, colours⟩ entered
      looked steps) :
    Accounts next names root ⟨⟨name, next name⟩ :: ⟨node, pending⟩ :: below, path ++ [name],
      colours.insert name .inProgress⟩ (entered ++ [name]) (looked ++ [(node, name)])
      (steps + 1) := by
  obtain ⟨distinct, coloured, reached, shared, visited, counted⟩ := accounts
  have absent : name ∉ entered := by
    rw [coloured, fresh]
    simp
  refine ⟨?_, fun a => ?_, ?_, ?_, ?_, ?_⟩
  · rw [← List.concat_eq_append]
    exact distinct.concat absent
  · rw [visitedInsert, ← coloured, List.mem_append, List.mem_singleton, or_comm]
  · have nameReached := (coherent.reaches coherent.nodeOnPath).tail coherent.link
    exact List.forall_mem_append.mpr ⟨reached, List.forall_mem_singleton.mpr nameReached⟩
  · -- The uses of the new type wait in front of what is left of the others.
    calc
      looked ++ [(node, name)] ++ waiting (⟨name, next name⟩ :: ⟨node, pending⟩ :: below)
      _ = looked ++ [(node, name)] ++
          ((next name).map (name, ·) ++ waiting (⟨node, pending⟩ :: below)) := rfl
      _ ~ looked ++ [(node, name)] ++
          (waiting (⟨node, pending⟩ :: below) ++ (next name).map (name, ·)) :=
        List.perm_append_comm.append_left _
      _ = looked ++ waiting (⟨node, name :: pending⟩ :: below) ++ (next name).map (name, ·) := by
        simp [waiting]
      _ ~ usesFrom next entered ++ (next name).map (name, ·) := shared.append_right _
      _ = usesFrom next (entered ++ [name]) := by simp [usesFrom]
  · refine List.forall_mem_append.mpr ⟨fun use mem => ?_, List.forall_mem_singleton.mpr ?_⟩
    · exact List.mem_append_left _ (visited use mem)
    · exact List.mem_append_right _ List.mem_cons_self
  · simp only [List.length_cons, List.length_append, List.length_nil] at counted ⊢
    omega

theorem Accounts.follow (seen : (colours.get? name).isSome = true)
    (accounts : Accounts next names root ⟨⟨node, name :: pending⟩ :: below, path, colours⟩ entered
      looked steps) :
    Accounts next names root ⟨⟨node, pending⟩ :: below, path, colours⟩ entered
      (looked ++ [(node, name)]) (steps + 1) := by
  obtain ⟨distinct, coloured, reached, shared, visited, counted⟩ := accounts
  refine ⟨distinct, coloured, reached, by simpa [waiting] using shared, ?_, ?_⟩
  · have nameEntered := (coloured name).mpr seen
    exact List.forall_mem_append.mpr ⟨visited, List.forall_mem_singleton.mpr nameEntered⟩
  · simp only [List.length_cons, List.length_append, List.length_nil] at counted ⊢
    omega

end Moving

theorem moveAccounts {s t : Search} {found : Option (List String)} {entered : List String}
    {looked : List (String × String)} {steps : Nat} (coherent : Coherent next names root s)
    (accounts : Accounts next names root s entered looked steps) (move : Move next s found t) :
    Accounts next names root t (entered ++ s.enters?.toList) (looked ++ s.looksAt?.toList)
      (steps + 1) := by
  cases move with
  | leave => simpa [Search.enters?, Search.looksAt?] using accounts.leave coherent
  | enter fresh =>
    simpa [Search.enters?, Search.looksAt?, fresh] using accounts.enter fresh coherent
  | close reached =>
    simpa [Search.enters?, Search.looksAt?, reached] using accounts.follow (by simp [reached])
  | skip left =>
    simpa [Search.enters?, Search.looksAt?, left] using accounts.follow (by simp [left])

theorem moveFinished {s t : Search} {found : Option (List String)} {name : String}
    (move : Move next s found t) (finished : s.colours.get? name = some .done) :
    t.colours.get? name = some .done := by
  cases move with
  | @leave node below path colours =>
    rw [NameMap.getInsert]
    split
    · rfl
    · exact finished
  | @enter node other pending below path colours fresh =>
    rw [NameMap.getInsert, if_neg]
    · exact finished
    · rintro rfl
      rw [finished] at fresh
      contradiction
  | close _ | skip _ => exact finished

structure Along (next : String → List String) (names : List String) (root : String) (s : Search)
    (before : List Search) : Prop where
  coherent : Coherent next names root s
  accounts : Accounts next names root s (root :: before.filterMap Search.enters?)
    (before.filterMap Search.looksAt?) before.length
  finished : ∀ old ∈ before, ∀ name, old.colours.get? name = some .done →
    s.colours.get? name = some .done

theorem moveAlong (closed : ∀ a, ∀ b ∈ next a, b ∈ names) {s t : Search}
    {found : Option (List String)} {before : List Search} (along : Along next names root s before)
    (move : Move next s found t) : Along next names root t (before ++ [s]) := by
  obtain ⟨coherent, accounts, finished⟩ := along
  refine ⟨moveCoherent closed coherent move, ?_, List.forall_mem_append.mpr ⟨?_, ?_⟩⟩
  · have moved := moveAccounts coherent accounts move
    simpa [List.filterMap_eq_flatMap_toList] using moved
  · exact fun old mem name done => moveFinished move (finished old mem name done)
  · exact List.forall_mem_singleton.mpr fun name done => moveFinished move done

theorem Loop.along (closed : ∀ a, ∀ b ∈ next a, b ∈ names) (known : root ∈ names)
    {f found : Findings} {states : List Search}
    (loop : Loop next withoutRepeats (start next root) f states found) :
    (∀ front s back, states = front ++ s :: back → Along next names root s front) ∧
      ∃ last, last.frames = [] ∧ Along next names root last states := by
  have begins : Along next names root (start next root) [] :=
    ⟨startCoherent known, startAccounts, by simp⟩
  simpa using loop.keeps (moveAlong closed) begins

theorem neverReentered {states : List Search}
    (along : ∀ front s back, states = front ++ s :: back → Along next names root s front) :
    states.Pairwise fun s t => ∀ name, s.colours.get? name = some .done →
      t.colours.get? name = some .done ∧ t.enters? ≠ some name := by
  refine pairwiseOfSplits fun before s after split t mem name done => ?_
  obtain ⟨between, back, rfl⟩ := List.append_of_mem mem
  have later := along (before ++ s :: between) t back (by simp [split])
  have stays := later.finished s (by simp) name done
  refine ⟨stays, fun enters => ?_⟩
  have fresh := entersFresh enters
  rw [stays] at fresh
  contradiction

theorem reachKnown (closed : ∀ a, ∀ b ∈ next a, b ∈ names) (known : root ∈ names) {name : String}
    (reach : ReflTransGen (Link next names) root name) : name ∈ names := by
  cases reach with
  | refl => exact known
  | tail _ link => exact closed _ _ link.2

section Ended

variable {last : Search} {entered : List String} {looked : List (String × String)} {steps : Nat}
  (accounts : Accounts next names root last entered looked steps) (ended : last.frames = [])

include accounts ended

theorem Accounts.allLooked : looked ~ usesFrom next entered := by
  simpa [ended, waiting] using accounts.shared

theorem Accounts.memLooked {a b : String} : (a, b) ∈ looked ↔ a ∈ entered ∧ b ∈ next a := by
  rw [(accounts.allLooked ended).mem_iff]
  simp [usesFrom]

theorem Accounts.lookedOnce (distinct : ∀ a, (next a).Nodup) : looked.Nodup := by
  rw [(accounts.allLooked ended).nodup_iff]
  refine List.nodup_flatMap.mpr ⟨fun a _ => ?_, accounts.distinct.imp fun {a b} apart => ?_⟩
  · exact (distinct a).map fun x y same => (Prod.mk.inj same).2
  · intro use left right
    obtain ⟨_, _, rfl⟩ := List.mem_map.mp left
    obtain ⟨_, _, same⟩ := List.mem_map.mp right
    exact apart (Prod.mk.inj same).1.symm

theorem Accounts.enteredIff (first : root ∈ entered) (name : String) :
    name ∈ entered ↔ ReflTransGen (Link next names) root name := by
  refine ⟨accounts.reached name, fun reach => ?_⟩
  induction reach with
  | refl => exact first
  | tail _ link ih =>
    exact accounts.visited _ ((accounts.memLooked ended).mpr ⟨ih, link.2⟩)

end Ended

end Loop

theorem successorsDistinct (symbols : SymbolTable) (g : DependencyGraph) (name : String) :
    (successors symbols g name).Nodup :=
  ((g.targets name).increasing.filter _).imp fun less => String.ne_of_lt less

theorem searchLoopExact (withoutRepeats : Bool) (symbols : SymbolTable) (g : DependencyGraph)
    (f : Findings) {root : String} (known : symbols.contains root = true) :
    ∃ states, Loop (successors symbols g) withoutRepeats (start (successors symbols g) root) f states
        (searchFrom withoutRepeats symbols g f root) ∧
      (root :: states.filterMap Search.enters?).Nodup ∧
      (∀ name, name ∈ root :: states.filterMap Search.enters? ↔
        ReflTransGen (Uses symbols g) root name) ∧
      (states.filterMap Search.looksAt?).Nodup ∧
      (∀ a b, (a, b) ∈ states.filterMap Search.looksAt? ↔
        ReflTransGen (Uses symbols g) root a ∧ Uses symbols g a b) ∧
      states.length = (root :: states.filterMap Search.enters?).length +
        (states.filterMap Search.looksAt?).length ∧
      (∀ s ∈ states, s.path = (s.frames.map Frame.node).reverse ∧ s.path.Nodup ∧
        s.path.IsChain (Uses symbols g) ∧
        (∀ name, s.colours.get? name = some .inProgress ↔ name ∈ s.path) ∧
        (∀ name, s.colours.get? name = some .inProgress → (s.path.idxOf? name).isSome = true) ∧
        ∀ before after t name, step (successors symbols g) withoutRepeats s before = some (t, after) →
          (t.path = s.path ++ [name] ↔ s.enters? = some name)) ∧
      states.Pairwise fun s t => ∀ name, s.colours.get? name = some .done →
        t.colours.get? name = some .done ∧ t.enters? ≠ some name := by
  have closed := successorsKnown symbols g
  have declared : root ∈ symbols.names := SymbolTable.memNames.mpr known
  obtain ⟨states, loop⟩ := loopEnds withoutRepeats closed (startWithin closed root)
    (startWork declared) f
  obtain ⟨each, last, ended, final⟩ := loop.along closed declared
  have accounts := final.accounts
  have entered := accounts.enteredIff ended List.mem_cons_self
  have counted := accounts.counted
  rw [ended] at counted
  rw [← linkSuccessors]
  refine ⟨states, loop, accounts.distinct, entered,
    accounts.lookedOnce ended (successorsDistinct symbols g), fun a b => ?_, counted, ?_,
    neverReentered each⟩
  · rw [accounts.memLooked ended, entered]
    exact and_congr_right fun reach => (and_iff_right (reachKnown closed declared reach)).symm
  · intro s mem
    obtain ⟨front, back, split⟩ := List.append_of_mem mem
    have coherent := (each front s back split).coherent
    refine ⟨coherent.path, coherent.distinct, coherent.linked, coherent.coloured, ?_, ?_⟩
    · intro name started
      exact List.isSome_idxOf?.mpr ((coherent.coloured name).mp started)
    · intro before after t name stepped
      exact stepEnters stepped

theorem searchLoopExactSharedType :
    let symbols := SymbolTable.empty.insertAll
      (["p.A", "p.B", "p.C", "p.D"].map fun name => { (default : TypeInfo) with fullName := name })
    let g := DependencyGraph.empty.addEdges [⟨"p.A", "p.B"⟩, ⟨"p.A", "p.C"⟩, ⟨"p.B", "p.A"⟩,
      ⟨"p.B", "p.C"⟩, ⟨"p.C", "p.C"⟩, ⟨"p.C", "x.Y"⟩, ⟨"x.Y", "p.D"⟩]
    symbols.contains "p.A" = true ∧
    ∃ states, Loop (successors symbols g) true (start (successors symbols g) "p.A") .empty states
        (searchFrom true symbols g .empty "p.A") ∧
      (states.filterMap Search.enters?).count "p.C" = 1 ∧
      (states.filterMap Search.looksAt?).count ("p.A", "p.C") = 1 ∧
      (states.filterMap Search.looksAt?).count ("p.C", "p.C") = 1 ∧
      "p.D" ∉ "p.A" :: states.filterMap Search.enters? := by
  intro symbols g
  have known : symbols.contains "p.A" = true := by decide
  obtain ⟨states, loop, once, entered, lookedOnce, looked, -⟩ :=
    searchLoopExact true symbols g .empty known
  have reach : ReflTransGen (Uses symbols g) "p.A" "p.C" := .single (by decide)
  refine ⟨known, states, loop, ?_, ?_, ?_, fun mem => ?_⟩
  · have mem := (List.mem_cons.mp ((entered "p.C").mpr reach)).resolve_left (by decide)
    exact List.count_eq_one_of_mem (List.nodup_cons.mp once).2 mem
  · exact List.count_eq_one_of_mem lookedOnce ((looked _ _).mpr ⟨.refl, by decide⟩)
  · exact List.count_eq_one_of_mem lookedOnce ((looked _ _).mpr ⟨reach, by decide⟩)
  · -- The only use of it is by a type that is not declared.
    have unused : ∀ user ∈ symbols.names, ¬ Uses symbols g user "p.D" := by decide
    rcases ((entered "p.D").mp mem).cases_tail with same | ⟨user, -, use⟩
    · exact absurd same (by decide)
    · exact unused user (SymbolTable.memNames.mpr use.1) use

end JavaAudit.Cycles
