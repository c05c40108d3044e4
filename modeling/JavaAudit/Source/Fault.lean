import JavaAudit.Source.Spot

/-! Faults in a tree: a token that is missing, or tokens that fit nowhere. The first one in preorder
is the one that is reported. A probe goes through the tree to find it and enters damaged trees only;
it comes to an end because every turn leaves fewer turns to take. -/
namespace JavaAudit.Source

inductive Fault where
  | missing (text : String) (place : Place)
  | unexpected (place : Place)
  deriving DecidableEq, Repr

namespace Fault

def located (what : String) (p : Place) : String :=
  what ++ " at line " ++ toString (p.row + 1) ++ ", column " ++ toString (p.column + 1)

def message : Fault → String
  | missing text p => located ("missing `" ++ text ++ "`") p
  | unexpected p => located "unexpected syntax" p

end Fault

namespace Tree

def fault? : Tree → Option Fault
  | leaf _ t => if t.missing then some (.missing t.text t.start) else none
  | node r .error cs => some (.unexpected (node r .error cs).start)
  | node _ _ _ => none

mutual

def damaged : Tree → Bool
  | leaf r t => (leaf r t).fault?.isSome
  | node r k cs => (node r k cs).fault?.isSome || anyDamaged cs

def anyDamaged : List Tree → Bool
  | [] => false
  | t :: ts => t.damaged || anyDamaged ts

end

theorem anyDamagedEq (ts : List Tree) : anyDamaged ts = ts.any damaged := by
  induction ts with
  | nil => rfl
  | cons t ts ih => rw [anyDamaged, ih, List.any_cons]

theorem damagedEq (t : Tree) : t.damaged = (t.fault?.isSome || t.children.any damaged) := by
  cases t with
  | leaf r token => rw [damaged, children, List.any_nil, Bool.or_false]
  | node r k cs => rw [damaged, children, anyDamagedEq]

end Tree

def Spot.faulty (p : Spot) : Bool := p.tree.fault?.isSome

def Spot.turnsBehind : Spot → Nat
  | root _ => 1
  | child p i _ => 2 * (Tree.preorderOf (p.tree.children.drop (i + 1))).length + 1 + p.turnsBehind

/-- A probe stands before a tree that is still to be looked at, or behind one that is done with. -/
inductive Probe where
  | before (spot : Spot)
  | behind (spot : Spot)

namespace Probe

inductive Turn where
  | ends (found : Option Spot)
  | goes (probe : Probe)

/-- One turn of the search for a fault. Only a marked tree is entered. -/
def turn (marked : Spot → Bool) : Probe → Turn
  | before p =>
      if p.faulty then .ends (some p)
      else match if marked p then p.childAt? 0 else none with
        | some c => .goes (before c)
        | none => .goes (behind p)
  | behind p =>
      match p.next?, p.parent? with
      | some q, _ => .goes (before q)
      | none, some q => .goes (behind q)
      | none, none => .ends none

def turnsLeft : Probe → Nat
  | before p => 2 * (Tree.preorderOf p.tree.children).length + 1 + p.turnsBehind
  | behind p => p.turnsBehind

theorem turnsLeftChild {p c : Spot} {i : Nat} (found : p.childAt? i = some c) :
    (before c).turnsLeft =
      2 * (Tree.preorderOf (p.tree.children.drop i)).length + p.turnsBehind := by
  obtain ⟨t, there, rfl⟩ := Option.map_eq_some_iff.mp found
  obtain ⟨bound, rfl⟩ := List.getElem?_eq_some_iff.mp there
  rw [List.drop_eq_getElem_cons bound, Tree.preorderOf, List.length_append, Tree.preorderEq,
    List.length_cons]
  simp only [turnsLeft, Spot.turnsBehind, Spot.treeChild]
  omega

theorem turnShortens {marked : Spot → Bool} {c d : Probe} :
    c.turn marked = .goes d → d.turnsLeft < c.turnsLeft := by
  fun_cases turn marked c with
  | case1 => nofun
  | case2 p whole first found =>
    intro taken
    cases taken
    split at found
    · rw [turnsLeftChild found, turnsLeft, List.drop_zero]
      omega
    · contradiction
  | case3 p =>
    intro taken
    cases taken
    simp only [turnsLeft]
    omega
  | case4 p q found =>
    intro taken
    cases taken
    cases p with
    | root => contradiction
    | child p i t =>
      rw [turnsLeftChild found, turnsLeft, Spot.turnsBehind]
      omega
  | case5 p q up last =>
    intro taken
    cases taken
    cases p with
    | root => contradiction
    | child p i t =>
      cases up
      simp only [turnsLeft, Spot.turnsBehind]
      omega
  | case6 => nofun

def search (marked : Spot → Bool) (c : Probe) : Option Spot :=
  match _taken : c.turn marked with
  | .ends found => found
  | .goes d => d.search marked
termination_by c.turnsLeft
decreasing_by exact turnShortens _taken

end Probe

namespace Tree

def faultSpot? (marked : Spot → Bool) (t : Tree) : Option Spot :=
  (Probe.before (.root t)).search marked

def firstFault (t : Tree) : Option Fault :=
  (t.faultSpot? (·.tree.damaged)).bind (·.tree.fault?)

def refusal? (t : Tree) : Option String :=
  if t.damaged then some ((t.firstFault.map Fault.message).getD "syntax error") else none

end Tree

end JavaAudit.Source
