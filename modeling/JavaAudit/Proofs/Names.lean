import JavaAudit.SymbolTable
import Mathlib.Data.List.Sort

/-! What can be read from sets and maps of names. Both are kept in increasing order, so their
members, or the values at each name, determine them. -/
namespace JavaAudit

theorem distinctOfIncreasing {β : Type} (name : β → String) {xs : List β}
    (order : xs.Pairwise (fun a b => name a < name b)) : xs.Nodup := by
  refine order.imp fun {a b} less equal => ?_
  subst equal
  exact String.lt_irrefl _ less

theorem eqOfIncreasing {β : Type} (name : β → String) {left right : List β}
    (leftOrder : left.Pairwise (fun a b => name a < name b))
    (rightOrder : right.Pairwise (fun a b => name a < name b))
    (same : ∀ x, x ∈ left ↔ x ∈ right) : left = right := by
  have perm := (List.perm_ext_iff_of_nodup (distinctOfIncreasing name leftOrder)
    (distinctOfIncreasing name rightOrder)).mpr same
  exact perm.eq_of_pairwise (fun a b _ _ ab ba => absurd ab (String.lt_asymm ba))
    leftOrder rightOrder

theorem NameSet.eqOfMem {s t : NameSet} (same : ∀ x, x ∈ s ↔ x ∈ t) : s = t := by
  obtain ⟨left, leftOrder⟩ := s
  obtain ⟨right, rightOrder⟩ := t
  have equal : left = right := eqOfIncreasing id leftOrder rightOrder same
  subst equal
  rfl

@[simp] theorem NameSet.memEmpty {x : String} : x ∈ NameSet.empty ↔ False := by
  simp [NameSet.memDef, NameSet.empty]

theorem NameSet.memOfList {x : String} {xs : List String} : x ∈ NameSet.ofList xs ↔ x ∈ xs := by
  have added : ∀ s : NameSet, x ∈ xs.foldl NameSet.insert s ↔ x ∈ s ∨ x ∈ xs := by
    induction xs with
    | nil => simp
    | cons y ys ih =>
      intro s
      rw [List.foldl_cons, ih, NameSet.memInsert, List.mem_cons, or_comm (a := x = y), or_assoc]
  simpa [NameSet.ofList] using added .empty

theorem NameSet.distinct (s : NameSet) : s.toList.Nodup := distinctOfIncreasing id s.increasing

namespace NameMap

variable {α : Type}

theorem findPlace {x y : String} {change : Option α → α} {entries : List (String × α)}
    (order : entries.Pairwise (fun a b => a.1 < b.1)) :
    ((place x change entries).find? (·.1 == y)).map Prod.snd =
      if y = x then some (change ((entries.find? (·.1 == x)).map Prod.snd))
      else (entries.find? (·.1 == y)).map Prod.snd := by
  induction entries with
  | nil =>
    by_cases h : x = y
    · simp [place, h]
    · simp [place, h, Ne.symm h]
  | cons entry rest ih =>
    obtain ⟨z, a⟩ := entry
    obtain ⟨above, order⟩ := List.pairwise_cons.mp order
    unfold place
    split
    · next less =>
      -- The entries behind a greater name cannot hold the name either.
      have absent : ((z, a) :: rest).find? (·.1 == x) = none := by
        refine List.find?_eq_none.mpr fun entry mem => ?_
        have bound : x < entry.1 := by
          rcases List.mem_cons.mp mem with rfl | mem
          · exact less
          · exact String.lt_trans less (above entry mem)
        simpa using (String.ne_of_lt bound).symm
      by_cases h : x = y
      · subst h
        simp [absent]
      · simp [h, Ne.symm h]
    · split
      · next same =>
        subst same
        by_cases h : x = y
        · simp [h]
        · simp [h, Ne.symm h]
      · next different =>
        by_cases h : z = y
        · have other : ¬ y = x := fun same => different (same.symm.trans h.symm)
          simp [h, other]
        · simp [h, Ne.symm different, ih order]

@[simp] theorem getEmpty {x : String} : (NameMap.empty : NameMap α).get? x = none := rfl

theorem getAlter {m : NameMap α} {x y : String} {change : Option α → α} :
    (m.alter x change).get? y = if y = x then some (change (m.get? x)) else m.get? y :=
  findPlace m.increasing

@[simp] theorem getInsert {m : NameMap α} {x y : String} {a : α} :
    (m.insert x a).get? y = if y = x then some a else m.get? y :=
  getAlter

theorem memOfGet {m : NameMap α} {x : String} {a : α} :
    m.get? x = some a ↔ (x, a) ∈ m.toList := by
  obtain ⟨entries, order⟩ := m
  simp only [get?]
  induction entries with
  | nil => simp
  | cons entry rest ih =>
    obtain ⟨y, b⟩ := entry
    obtain ⟨above, order⟩ := List.pairwise_cons.mp order
    by_cases h : y = x
    · subst h
      have absent : (y, a) ∉ rest := fun mem => absurd (above _ mem) (String.lt_irrefl y)
      simp [absent, eq_comm]
    · simp [h, Ne.symm h, ih order]

theorem containsIff {m : NameMap α} {x : String} :
    m.contains x = true ↔ ∃ a, m.get? x = some a := by
  simp [contains, memOfGet]

theorem memKeys {m : NameMap α} {x : String} : x ∈ m.keys ↔ m.contains x = true := by
  simp [containsIff, memOfGet, keys]

theorem keysIncreasing (m : NameMap α) : m.keys.Pairwise (· < ·) := by
  rw [keys, List.pairwise_map]
  exact m.increasing

theorem eqOfGet {m n : NameMap α} (same : ∀ x, m.get? x = n.get? x) : m = n := by
  have members : ∀ entry, entry ∈ m.toList ↔ entry ∈ n.toList := by
    intro ⟨x, a⟩
    rw [← memOfGet, ← memOfGet, same]
  obtain ⟨left, leftOrder⟩ := m
  obtain ⟨right, rightOrder⟩ := n
  have equal : left = right := eqOfIncreasing Prod.fst leftOrder rightOrder members
  subst equal
  rfl

end NameMap

theorem SymbolTable.memNames {symbols : SymbolTable} {name : String} :
    name ∈ symbols.names ↔ symbols.contains name = true :=
  NameMap.memKeys

end JavaAudit
