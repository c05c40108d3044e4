import JavaAudit.Data.NameSet

/-! Finite maps from names, kept in strictly increasing order of the names. -/
namespace JavaAudit

structure NameMap (α : Type) where
  toList : List (String × α)
  increasing : toList.Pairwise (fun a b => a.1 < b.1)

namespace NameMap

variable {α β : Type}

def empty : NameMap α := ⟨[], .nil⟩

instance : Inhabited (NameMap α) := ⟨empty⟩

instance [DecidableEq α] : DecidableEq (NameMap α) := fun s t =>
  decidable_of_iff (s.toList = t.toList)
    ⟨fun h => by cases s; cases t; cases h; rfl, fun h => h ▸ rfl⟩

def get? (m : NameMap α) (x : String) : Option α := (m.toList.find? (·.1 == x)).map Prod.snd

def contains (m : NameMap α) (x : String) : Bool := m.toList.any (·.1 == x)

def keys (m : NameMap α) : List String := m.toList.map Prod.fst

def values (m : NameMap α) : List α := m.toList.map Prod.snd

def size (m : NameMap α) : Nat := m.toList.length

def isEmpty (m : NameMap α) : Bool := m.toList.isEmpty

def place (x : String) (change : Option α → α) : List (String × α) → List (String × α)
  | [] => [(x, change none)]
  | (y, a) :: rest =>
      if x < y then (x, change none) :: (y, a) :: rest
      else if x = y then (y, change (some a)) :: rest
      else (y, a) :: place x change rest

theorem keyOfPlace {x k : String} {change : Option α → α} {rest : List (String × α)}
    (h : k ∈ (place x change rest).map Prod.fst) : k = x ∨ k ∈ rest.map Prod.fst := by
  induction rest with
  | nil => simpa [place] using h
  | cons head rest ih =>
    obtain ⟨y, a⟩ := head
    unfold place at h
    split at h
    · simpa using h
    · split at h
      · exact Or.inr (by simpa using h)
      · rcases List.mem_cons.mp h with rfl | mem
        · exact Or.inr (by simp)
        · rcases ih mem with rfl | mem
          · exact Or.inl rfl
          · exact Or.inr (List.mem_cons_of_mem _ mem)

theorem placeIncreasing {x : String} {change : Option α → α} {rest : List (String × α)}
    (h : rest.Pairwise (fun a b => a.1 < b.1)) :
    (place x change rest).Pairwise (fun a b => a.1 < b.1) := by
  induction rest with
  | nil => simp [place]
  | cons head rest ih =>
    obtain ⟨y, a⟩ := head
    obtain ⟨above, tail⟩ := List.pairwise_cons.mp h
    unfold place
    split
    · next less =>
      refine List.pairwise_cons.mpr ⟨?_, h⟩
      intro b mem
      rcases List.mem_cons.mp mem with rfl | mem
      · exact less
      · exact String.lt_trans less (above b mem)
    · next notLess =>
      split
      · exact List.pairwise_cons.mpr ⟨above, tail⟩
      · next different =>
        refine List.pairwise_cons.mpr ⟨?_, ih tail⟩
        intro b mem
        rcases keyOfPlace (List.mem_map_of_mem mem) with same | mem
        · exact same ▸ ltOfNotLt notLess different
        · obtain ⟨c, memC, same⟩ := List.mem_map.mp mem
          exact same ▸ above c memC

def alter (m : NameMap α) (x : String) (change : Option α → α) : NameMap α :=
  ⟨place x change m.toList, placeIncreasing m.increasing⟩

def insert (m : NameMap α) (x : String) (a : α) : NameMap α := m.alter x fun _ => a

def map (f : α → β) (m : NameMap α) : NameMap β :=
  ⟨m.toList.map fun (x, a) => (x, f a), by
    rw [List.pairwise_map]
    exact m.increasing⟩

end NameMap

end JavaAudit
