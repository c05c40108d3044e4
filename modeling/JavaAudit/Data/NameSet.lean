/-! Finite sets of names, kept in strictly increasing order, so that two sets with the same members
are equal. -/
namespace JavaAudit

theorem ltOfNotLt {a b : String} (h : ¬ a < b) (different : a ≠ b) : b < a := by
  by_cases less : b < a
  · exact less
  · exact absurd (String.le_antisymm (String.not_lt.mp less) (String.not_lt.mp h)) different

structure NameSet where
  toList : List String
  increasing : toList.Pairwise (· < ·)

namespace NameSet

def empty : NameSet := ⟨[], .nil⟩

instance : Inhabited NameSet := ⟨empty⟩

instance : Membership String NameSet := ⟨fun s x => x ∈ s.toList⟩

instance : DecidableEq NameSet := fun s t =>
  decidable_of_iff (s.toList = t.toList)
    ⟨fun h => by cases s; cases t; cases h; rfl, fun h => h ▸ rfl⟩

theorem memDef {s : NameSet} {x : String} : x ∈ s ↔ x ∈ s.toList := Iff.rfl

instance (x : String) (s : NameSet) : Decidable (x ∈ s) :=
  decidable_of_iff (x ∈ s.toList) memDef.symm

def place (x : String) : List String → List String
  | [] => [x]
  | y :: ys => if x < y then x :: y :: ys else if x = y then y :: ys else y :: place x ys

theorem memPlace {x a : String} {ys : List String} : a ∈ place x ys ↔ a = x ∨ a ∈ ys := by
  induction ys with
  | nil => simp [place]
  | cons y ys ih =>
    unfold place
    split
    · simp
    · split
      · next same => subst same; simp
      · simp only [List.mem_cons, ih]
        constructor
        · rintro (h | h | h) <;> simp [h]
        · rintro (h | h | h) <;> simp [h]

theorem placeIncreasing {x : String} {ys : List String} (h : ys.Pairwise (· < ·)) :
    (place x ys).Pairwise (· < ·) := by
  induction ys with
  | nil => simp [place]
  | cons y ys ih =>
    obtain ⟨above, rest⟩ := List.pairwise_cons.mp h
    unfold place
    split
    · next less =>
      refine List.pairwise_cons.mpr ⟨?_, h⟩
      intro a mem
      rcases List.mem_cons.mp mem with rfl | mem
      · exact less
      · exact String.lt_trans less (above a mem)
    · next notLess =>
      split
      · exact h
      · next different =>
        refine List.pairwise_cons.mpr ⟨?_, ih rest⟩
        intro a mem
        rcases memPlace.mp mem with rfl | mem
        · exact ltOfNotLt notLess different
        · exact above a mem

def insert (s : NameSet) (x : String) : NameSet :=
  ⟨place x s.toList, placeIncreasing s.increasing⟩

@[simp] theorem memInsert {s : NameSet} {x a : String} : a ∈ s.insert x ↔ a = x ∨ a ∈ s :=
  memPlace

def ofList (xs : List String) : NameSet := xs.foldl insert empty

def contains (s : NameSet) (x : String) : Bool := s.toList.contains x

@[simp] theorem containsIff {s : NameSet} {x : String} : s.contains x = true ↔ x ∈ s := by
  simp [contains, memDef]

def insertNew (s : NameSet) (x : String) : Bool × NameSet := (!s.contains x, s.insert x)

def size (s : NameSet) : Nat := s.toList.length

end NameSet

end JavaAudit
