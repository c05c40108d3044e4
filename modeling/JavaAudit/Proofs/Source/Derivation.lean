import JavaAudit.Source.Parse

/-! What a rule may stand for, told without looking at tokens ahead or at the bound on the depth. The
trees that are built by following a rule are always among those that can be derived from it, so what
all derivations have in common holds of every tree that is parsed. -/
namespace JavaAudit.Source

variable {N : Type}

inductive Derives (rules : N → Rule N) : Rule N → List Tree → Prop
  | nothing : Derives rules .nothing []
  | terminal {t token} (accepted : t.accepts token = true) :
      Derives rules (.terminal t) [.leaf none token]
  | both {first next ts us} (left : Derives rules first ts) (right : Derives rules next us) :
      Derives rules (.both first next) (ts ++ us)
  | first {first other ts} (taken : Derives rules first ts) : Derives rules (.either first other) ts
  | second {first other ts} (taken : Derives rules other ts) :
      Derives rules (.either first other) ts
  | none {item} : Derives rules (.many item) []
  | more {item ts us} (one : Derives rules item ts) (rest : Derives rules (.many item) us) :
      Derives rules (.many item) (ts ++ us)
  | node {kind parts ts} (below : Derives rules parts ts) :
      Derives rules (.node kind parts) [.node none kind ts]
  | playing {role item ts} (same : Derives rules item ts) :
      Derives rules (.playing role item) (ts.map (Tree.withRole role))
  | given {test item ts} (same : Derives rules item ts) : Derives rules (.given test item) ts
  | chosen {look cases other word rule ts} (listed : (word, rule) ∈ cases)
      (same : Derives rules rule ts) : Derives rules (.choose look cases other) ts
  | otherwise {look cases other ts} (same : Derives rules other ts) :
      Derives rules (.choose look cases other) ts
  | item {item links ts} (same : Derives rules item ts) : Derives rules (.chain item links) ts
  | link {item links kinds role kind parts ts us} (listed : (kinds, role, kind, parts) ∈ links)
      (before : Derives rules (.chain item links) ts) (fitting : mayFollow kinds ts = true)
      (below : Derives rules parts us) :
      Derives rules (.chain item links) [.node none kind (linkTo role ts ++ us)]
  | only {kinds item ts} (same : Derives rules item ts) (fitting : mayFollow kinds ts = true) :
      Derives rules (.only kinds item) ts
  | named {n ts} (same : Derives rules (rules n) ts) : Derives rules (.named n) ts

theorem leavesPlaying (role : Role) (ts : List Tree) :
    Tree.leavesOf (ts.map (Tree.withRole role)) = Tree.leavesOf ts := by
  induction ts with
  | nil => rfl
  | cons t ts ih => simp [Tree.leavesOf, ih]

theorem leavesLinked (role : Option Role) (ts : List Tree) :
    Tree.leavesOf (linkTo role ts) = Tree.leavesOf ts := by
  cases role with
  | none => rfl
  | some role => exact leavesPlaying role ts

theorem leavesSingle (r : Option Role) (k : Kind) (ts : List Tree) :
    Tree.leavesOf [.node r k ts] = Tree.leavesOf ts :=
  List.append_nil _

/-- A rule is read from the front of a row of tokens: the trees are derived from it, and their leaves
are the tokens in front of those that are left. -/
structure Reads (rules : N → Rule N) (rule : Rule N) (before : List Token) (ts : List Tree)
    (after : List Token) : Prop where
  derives : Derives rules rule ts
  leaves : before = Tree.leavesOf ts ++ after

theorem Reads.both {rules : N → Rule N} {rule first next : Rule N} {before middle after : List Token}
    {ts us : List Tree} (left : Reads rules first before ts middle)
    (right : Reads rules next middle us after) (derives : Derives rules rule (ts ++ us)) :
    Reads rules rule before (ts ++ us) after := by
  refine ⟨derives, ?_⟩
  rw [left.leaves, right.leaves, Tree.leavesOfAppend, List.append_assoc]

def Reply.Within (P : List Tree → List Token → Prop) (r : Reply) : Prop :=
  ∀ ts c, r.outcome = some (ts, c) → P ts c.rest

namespace Reply

variable {P : List Tree → List Token → Prop}

theorem withinRefuse (c : Cursor) : (refuse c).Within P := by
  intro ts d found
  cases found

theorem withinAccept {ts : List Tree} (c : Cursor) (holds : P ts c.rest) :
    (accept ts c).Within P := by
  intro us d found
  cases found
  exact holds

end Reply

structure FollowsWithin (rules : N → Rule N) (fuel : Nat) : Prop where
  follow : ∀ rule c, (Rule.follow rules fuel rule c).Within (Reads rules rule c.rest)
  extend : ∀ {item links} before ts c, Reads rules (.chain item links) before ts c.rest →
    (Rule.follow.extend rules fuel links ts c).Within (Reads rules (.chain item links) before)
  link : ∀ {item links} rest before ts c, rest ⊆ links →
    Reads rules (.chain item links) before ts c.rest →
    (Rule.follow.link rules fuel rest ts c).Within (Reads rules (.chain item links) before)

namespace FollowsWithin

variable {rules : N → Rule N} {fuel : Nat}

theorem start (rules : N → Rule N) : FollowsWithin rules 0 where
  follow rule c := by
    rw [Rule.follow]
    exact Reply.withinRefuse c
  extend before ts c read := by
    rw [Rule.follow.extend]
    exact Reply.withinAccept c read
  link rest before ts c _ _ := by
    rw [Rule.follow.link]
    exact Reply.withinRefuse c

theorem followMore (w : FollowsWithin rules fuel) (rule : Rule N) (c : Cursor) :
    (Rule.follow rules (fuel + 1) rule c).Within (Reads rules rule c.rest) := by
  intro ts d found
  cases rule <;> simp only [Rule.follow] at found
  case nothing =>
    cases found
    exact ⟨.nothing, rfl⟩
  case terminal t =>
    split at found
    · cases found
    · next tokens =>
      split at found
      · next accepted =>
        cases found
        exact ⟨.terminal accepted, tokens⟩
      · cases found
  case both first next =>
    split at found
    · next none => simp [none] at found
    · next us c' left =>
      split at found
      · next none => simp [none] at found
      · next vs c'' right =>
        cases found
        have front := w.follow _ _ _ _ left
        have back := w.follow _ _ _ _ right
        exact front.both back (.both front.derives back.derives)
  case either first other =>
    split at found
    · have read := w.follow _ _ _ _ found
      exact ⟨.first read.derives, read.leaves⟩
    · have read := w.follow _ _ _ _ found
      exact ⟨.second read.derives, read.leaves⟩
  case many item =>
    split at found
    · cases found
      exact ⟨.none, rfl⟩
    · next us c' one =>
      split at found
      · cases found
        exact ⟨.none, rfl⟩
      · split at found
        · next none => simp [none] at found
        · next vs c'' rest =>
          cases found
          have front := w.follow _ _ _ _ one
          have back := w.follow _ _ _ _ rest
          exact front.both back (.more front.derives back.derives)
  case node kind parts =>
    obtain ⟨⟨us, c'⟩, below, same⟩ := Option.map_eq_some_iff.mp found
    cases same
    have read := w.follow _ _ _ _ below
    exact ⟨.node read.derives, by rw [leavesSingle, ← read.leaves]⟩
  case playing role item =>
    obtain ⟨⟨us, c'⟩, below, same⟩ := Option.map_eq_some_iff.mp found
    cases same
    have read := w.follow _ _ _ _ below
    exact ⟨.playing read.derives, by rw [leavesPlaying, ← read.leaves]⟩
  case given test item =>
    split at found
    · have read := w.follow _ _ _ _ found
      exact ⟨.given read.derives, read.leaves⟩
    · cases found
  case choose look cases other =>
    split at found
    · next listed =>
      have read := w.follow _ _ _ _ found
      exact ⟨.chosen (List.mem_of_find?_eq_some listed) read.derives, read.leaves⟩
    · have read := w.follow _ _ _ _ found
      exact ⟨.otherwise read.derives, read.leaves⟩
  case chain item links =>
    split at found
    · next none => simp [none] at found
    · next us c' first =>
      have read := w.follow _ _ _ _ first
      exact w.extend c.rest us c' ⟨.item read.derives, read.leaves⟩ _ _ found
  case only kinds item =>
    split at found
    · next none => simp [none] at found
    · next us c' same =>
      split at found
      · next fitting =>
        rw [same] at found
        cases found
        have read := w.follow _ _ _ _ same
        exact ⟨.only read.derives fitting, read.leaves⟩
      · cases found
  case named n =>
    have read := w.follow _ _ _ _ found
    exact ⟨.named read.derives, read.leaves⟩

theorem extendMore (w : FollowsWithin rules fuel) {item : Rule N}
    {links : List (List Kind × Option Role × Kind × Rule N)} (before : List Token) (ts : List Tree)
    (c : Cursor) (read : Reads rules (.chain item links) before ts c.rest) :
    (Rule.follow.extend rules (fuel + 1) links ts c).Within
      (Reads rules (.chain item links) before) := by
  intro us d found
  simp only [Rule.follow.extend] at found
  split at found
  · cases found
    exact read
  · next longer c' linked =>
    have further := w.link links before ts c (List.Subset.refl _) read _ _ linked
    exact w.extend before longer c' further _ _ found

theorem linkMore (w : FollowsWithin rules fuel) {item : Rule N}
    {links : List (List Kind × Option Role × Kind × Rule N)}
    (rest : List (List Kind × Option Role × Kind × Rule N)) (before : List Token) (ts : List Tree)
    (c : Cursor) (listed : rest ⊆ links) (read : Reads rules (.chain item links) before ts c.rest) :
    (Rule.follow.link rules (fuel + 1) rest ts c).Within
      (Reads rules (.chain item links) before) := by
  intro us d found
  cases rest with
  | nil => cases found
  | cons next rest =>
    obtain ⟨kinds, role, kind, parts⟩ := next
    obtain ⟨here, others⟩ := List.cons_subset.mp listed
    simp only [Rule.follow.link] at found
    split at found
    · next fitting =>
      split at found
      · next more c' below =>
        cases found
        have further := w.follow _ _ _ _ below
        refine ⟨.link here read.derives fitting further.derives, ?_⟩
        rw [leavesSingle, Tree.leavesOfAppend, leavesLinked, List.append_assoc, ← further.leaves]
        exact read.leaves
      · exact w.link rest before ts c others read _ _ found
    · exact w.link rest before ts c others read _ _ found

theorem always (rules : N → Rule N) (fuel : Nat) : FollowsWithin rules fuel := by
  induction fuel with
  | zero => exact start rules
  | succ fuel w => exact ⟨w.followMore, w.extendMore, w.linkMore⟩

end FollowsWithin

theorem attemptReads {ts : List Token} {t : Tree} (found : (attempt ts).complete? = some t) :
    Reads grammar (.named .program) ts [t] [] := by
  unfold Reply.complete? at found
  split at found
  · next u c outcome =>
    split at found
    · next finished =>
      cases found
      have read := (FollowsWithin.always grammar _).follow _ _ _ _ outcome
      rw [List.isEmpty_iff.mp finished] at read
      exact read
    · cases found
  · cases found

theorem wreckDamaged (index done : Nat) (ts : List Token) :
    (wreck index done ts).damaged = true := by
  rw [wreck, Tree.damagedEq, Bool.or_eq_true]
  exact .inr (List.any_eq_true.mpr ⟨_, List.mem_append_right _ (List.mem_singleton.mpr rfl), rfl⟩)

theorem treeOfMore (bound : Nat) (ts : List Token) :
    treeOf (bound + 1) ts = match (attempt ts).complete? with
      | some t => t
      | none =>
          match mend? (attempt ts).reached ts with
          | some mended => treeOf bound mended
          | none =>
              wreck (attempt ts).reached (((attempt ts).outcome.map (·.2.behind)).getD 0) ts := by
  rfl

mutual

theorem damagedOfMissing {token : Token} (missing : token.missing = true) :
    ∀ t : Tree, token ∈ t.leaves → t.damaged = true
  | .leaf r u, mem => by
    obtain rfl := List.mem_singleton.mp mem
    rw [Tree.damaged, Tree.fault?, if_pos missing]
    rfl
  | .node r k cs, mem => by
    rw [Tree.damaged, Bool.or_eq_true]
    exact .inr (anyDamagedOfMissing missing cs mem)

theorem anyDamagedOfMissing {token : Token} (missing : token.missing = true) :
    ∀ ts : List Tree, token ∈ Tree.leavesOf ts → Tree.anyDamaged ts = true
  | [], mem => by cases mem
  | t :: ts, mem => by
    rw [Tree.anyDamaged, Bool.or_eq_true]
    rcases List.mem_append.mp mem with mem | mem
    · exact .inl (damagedOfMissing missing t mem)
    · exact .inr (anyDamagedOfMissing missing ts mem)

end

theorem mendedMissing {index : Nat} {ts us : List Token} (mended : mend? index ts = some us) :
    ∃ token ∈ us, token.missing = true := by
  have held : ∀ marks : List String, us ∈ marks.map (supplied · index ts) →
      ∃ token ∈ us, token.missing = true := by
    intro marks mem
    obtain ⟨text, -, rfl⟩ := List.mem_map.mp mem
    exact ⟨_, List.mem_append_right _ List.mem_cons_self, rfl⟩
  rw [mend?, Option.or_eq_some_iff] at mended
  rcases mended with found | ⟨-, found⟩
  · exact held _ (List.mem_of_find?_eq_some found)
  · exact held _ (List.mem_of_find?_eq_some found)

theorem treeOfReads {bound : Nat} {ts : List Token} (whole : (treeOf bound ts).damaged = false) :
    Reads grammar (.named .program) ts [treeOf bound ts] [] := by
  induction bound generalizing ts with
  | zero => exact absurd whole (ne_true_of_eq_false · (wreckDamaged ts.length 0 ts))
  | succ bound ih =>
    rw [treeOfMore] at whole ⊢
    cases complete : (attempt ts).complete? with
    | some t => exact attemptReads complete
    | none =>
      rw [complete] at whole
      cases mended : mend? (attempt ts).reached ts with
      | some us =>
        rw [mended] at whole
        -- The supplied mark would be a leaf of the tree, and a fault in it.
        obtain ⟨token, mem, missing⟩ := mendedMissing mended
        rw [(ih whole).leaves, List.append_nil] at mem
        have damaged := anyDamagedOfMissing missing _ mem
        rw [Tree.anyDamaged, whole] at damaged
        cases damaged
      | none =>
        rw [mended] at whole
        exact absurd whole (ne_true_of_eq_false · (wreckDamaged _ _ _))

theorem parseEq (source : String) :
    parse source = match (treeOfSource source).refusal? with
      | none => .parsed (treeOfSource source)
      | some reason => .failed reason := by
  rfl

theorem parsedOfWhole {source : String} (whole : (treeOfSource source).damaged = false) :
    parse source = .parsed (treeOfSource source) := by
  rw [parseEq, Tree.refusal?, if_neg (by simp [whole])]

theorem parsedReads {source : String} {tree : Tree} (parsed : parse source = .parsed tree) :
    Reads grammar (.named .program) (tokens source) [tree] [] := by
  rw [parseEq] at parsed
  cases refused : (treeOfSource source).refusal? with
  | some reason =>
    rw [refused] at parsed
    cases parsed
  | none =>
    rw [refused] at parsed
    cases parsed
    have whole : (treeOfSource source).damaged = false := by
      rw [Tree.refusal?] at refused
      split at refused
      · cases refused
      · next whole => exact Bool.eq_false_iff.mpr whole
    exact @treeOfReads mendingBound (tokens source) whole

theorem parsedDerives {source : String} {tree : Tree} (parsed : parse source = .parsed tree) :
    Derives grammar (.named .program) [tree] :=
  (parsedReads parsed).derives

theorem parsedLeaves {source : String} {tree : Tree} (parsed : parse source = .parsed tree) :
    tree.leaves = tokens source := by
  have leaves := (parsedReads parsed).leaves
  rw [List.append_nil, Tree.leavesOf, Tree.leavesOf, List.append_nil] at leaves
  exact leaves.symm

end JavaAudit.Source
