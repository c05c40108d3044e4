import JavaAudit.Proofs.Facts.Visits

/-! The events of a tree, by recursion over it. A public member is an event of the body that holds it;
the declaration around that body takes the event up as its own. -/
namespace JavaAudit
open Source Tree

def scopeBelow (s : Scope) (t : Tree) : Tree → Option Scope := fun c =>
  if t.isKind .packageDeclaration || t.isKind .importDeclaration then none
  else if t.isMethod then if c.role = some .body then some s else none
  else match t.declares? with
    | some (kind, name) =>
        if c.isMemberBody then some (s.inner kind name) else none
    | none => some (if t.opensAnonymous && c.isKind .classBody then s.anonymous else s)

def outside (t : Tree) (inner : List Event) : List Event :=
  if t.declares?.isSome then inner.filter fun e => !e.isMember else inner

theorem scopeBelowFree {s below : Scope} {t c : Tree} (free : s.owner = none)
    (plain : t.declares? = none) (found : scopeBelow s t c = some below) : below.owner = none := by
  simp only [scopeBelow, plain] at found
  split at found
  · cases found
  · split at found
    · split at found
      · cases found
        exact free
      · cases found
    · cases found
      split
      · rfl
      · exact free

mutual

def events (s : Scope) : Tree → List Event
  | .leaf _ _ => []
  | .node r k cs =>
      let t : Tree := .node r k cs
      let inner := if t.isField then valueEvents s cs else eventsOf (scopeBelow s t) cs
      visit s inner t ++ outside t inner

def eventsOf (scope : Tree → Option Scope) : List Tree → List Event
  | [] => []
  | t :: ts =>
      (match scope t with
        | some s => events s t
        | none => []) ++ eventsOf scope ts

def valueEvents (s : Scope) : List Tree → List Event
  | [] => []
  | .node _ .variableDeclarator parts :: ts =>
      eventsOf (fun c => if c.role = some .value then some s else none) parts ++ valueEvents s ts
  | _ :: ts => valueEvents s ts

end

def innerEvents (s : Scope) (t : Tree) : List Event :=
  if t.isField then valueEvents s t.children else eventsOf (scopeBelow s t) t.children

theorem eventsEq (s : Scope) (t : Tree) :
    events s t = visit s (innerEvents s t) t ++ outside t (innerEvents s t) := by
  cases t with
  | leaf r token => rfl
  | node r k cs => rw [events]; rfl

theorem eventsOfEq (f : Tree → Option Scope) (ts : List Tree) :
    eventsOf f ts = ts.flatMap fun t => (f t).elim [] fun s => events s t := by
  induction ts with
  | nil => rfl
  | cons t ts ih =>
    rw [eventsOf, ih, List.flatMap_cons]
    cases f t <;> rfl

theorem valueEventsEq (s : Scope) (ts : List Tree) :
    valueEvents s ts = ts.flatMap fun t => if t.isKind .variableDeclarator then
      eventsOf (fun c => if c.role = some .value then some s else none) t.children else [] := by
  induction ts with
  | nil => rfl
  | cons t ts ih =>
    rw [List.flatMap_cons, ← ih]
    cases t with
    | leaf r token => rfl
    | node r k cs => cases k <;> rfl

mutual

theorem eventsFree {s : Scope} (free : s.owner = none) (t : Tree) :
    ∀ e ∈ events s t, e.isMember = false := by
  cases t with
  | leaf r token => exact nofun
  | node r k cs =>
    intro e mem
    rw [events] at mem
    rcases List.mem_append.mp mem with own | inner
    · exact visitFree free own
    · unfold outside at inner
      split at inner
      · simpa using (List.mem_filter.mp inner).2
      · next plain =>
        split at inner
        · exact valueEventsFree free cs e inner
        · refine eventsOfFree (fun c below found => ?_) cs e inner
          exact scopeBelowFree free (by simpa using plain) found

theorem eventsOfFree {scope : Tree → Option Scope}
    (free : ∀ t s, scope t = some s → s.owner = none) (ts : List Tree) :
    ∀ e ∈ eventsOf scope ts, e.isMember = false := by
  cases ts with
  | nil => exact nofun
  | cons t ts =>
    intro e mem
    rw [eventsOf] at mem
    rcases List.mem_append.mp mem with first | rest
    · split at first
      · next found => exact eventsFree (free t _ found) t e first
      · cases first
    · exact eventsOfFree free ts e rest

theorem valueEventsFree {s : Scope} (free : s.owner = none) (ts : List Tree) :
    ∀ e ∈ valueEvents s ts, e.isMember = false := by
  intro e mem
  unfold valueEvents at mem
  split at mem
  · cases mem
  · next r parts ts =>
    rcases List.mem_append.mp mem with value | rest
    · refine eventsOfFree (fun c below found => ?_) parts e value
      split at found
      · cases found
        exact free
      · cases found
    · exact valueEventsFree free ts e rest
  · next t ts _ => exact valueEventsFree free ts e mem

end

end JavaAudit
