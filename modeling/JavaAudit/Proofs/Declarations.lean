import JavaAudit.Proofs.Names

/-! What a symbol table holds after a list of declarations: at each name the last declaration of
it. -/
namespace JavaAudit

def lastDeclaration (ts : List TypeInfo) (name : String) : Option TypeInfo :=
  (ts.filter fun t => t.fullName = name).getLast?

theorem lastDeclarationCons (t : TypeInfo) (ts : List TypeInfo) (name : String) :
    lastDeclaration (t :: ts) name =
      (lastDeclaration ts name).or (if name = t.fullName then some t else none) := by
  unfold lastDeclaration
  by_cases same : t.fullName = name
  · rw [List.filter_cons_of_pos (by simpa using same), List.getLast?_cons, if_pos same.symm]
    cases (ts.filter fun t => t.fullName = name).getLast? <;> rfl
  · rw [List.filter_cons_of_neg (by simpa using same), if_neg (Ne.symm same), Option.or_none]

theorem lastDeclared {ts : List TypeInfo} {name : String} {t : TypeInfo}
    (last : lastDeclaration ts name = some t) : t ∈ ts ∧ t.fullName = name := by
  have mem := List.mem_filter.mp (List.mem_of_getLast? last)
  exact ⟨mem.1, by simpa using mem.2⟩

theorem hasLastDeclaration {ts : List TypeInfo} {name : String} :
    (∃ t, lastDeclaration ts name = some t) ↔ ∃ t ∈ ts, t.fullName = name := by
  constructor
  · rintro ⟨t, last⟩
    exact ⟨t, lastDeclared last⟩
  · rintro ⟨t, mem, same⟩
    have filled : ts.filter (fun t => t.fullName = name) ≠ [] :=
      List.ne_nil_of_mem (List.mem_filter.mpr ⟨mem, by simpa using same⟩)
    exact ⟨_, List.getLast?_eq_some_getLast filled⟩

namespace SymbolTable

theorem getInsertOne (s : SymbolTable) (t : TypeInfo) (name : String) :
    (s.insert t).get? name = if name = t.fullName then some t else s.get? name :=
  NameMap.getInsert

theorem getInsertAll (s : SymbolTable) (ts : List TypeInfo) (name : String) :
    (s.insertAll ts).get? name = (lastDeclaration ts name).or (s.get? name) := by
  induction ts generalizing s with
  | nil => rfl
  | cons t ts ih =>
    have rest : s.insertAll (t :: ts) = (s.insert t).insertAll ts := rfl
    rw [rest, ih, getInsertOne, lastDeclarationCons, Option.or_assoc]
    by_cases same : name = t.fullName <;> simp [same]

theorem getDeclared (ts : List TypeInfo) (name : String) :
    (empty.insertAll ts).get? name = lastDeclaration ts name := by
  rw [getInsertAll]
  exact Option.or_none

theorem containsDeclared {ts : List TypeInfo} {name : String} :
    (empty.insertAll ts).contains name = true ↔ ∃ t ∈ ts, t.fullName = name := by
  rw [← hasLastDeclaration, contains, NameMap.containsIff]
  simp only [← getDeclared, get?]

end SymbolTable

end JavaAudit
