import JavaAudit.Files.Path
import Mathlib.Data.List.Sort

/-! The order of paths, one name after the other, and the names of source files. -/
namespace JavaAudit.Path

theorem precedesTrans {a b c : List String} (left : precedes a b = true)
    (right : precedes b c = true) : precedes a c = true := by
  simp only [precedes, Bool.not_eq_true', List.lex_eq_false_iff_ge] at left right ⊢
  exact List.le_trans left right

theorem precedesTotal (a b : List String) : (precedes a b || precedes b a) = true := by
  simp only [precedes, Bool.or_eq_true, Bool.not_eq_true', List.lex_eq_false_iff_ge]
  exact List.le_total a b

theorem precedesAntisymm {a b : List String} (left : precedes a b = true)
    (right : precedes b a = true) : a = b := by
  simp only [precedes, Bool.not_eq_true', List.lex_eq_false_iff_ge] at left right
  exact List.le_antisymm left right

theorem lexOfPrecedes {a b : List String} (before : precedes a b = true) (different : a ≠ b) :
    a.lex b = true := by
  by_contra notLess
  have after : precedes b a = true := by
    unfold precedes
    simpa using notLess
  exact different (precedesAntisymm before after)

theorem behindLastDot {cs ending : List Char} (plain : ∀ c ∈ ending, c ≠ '.')
    (longer : ending.length < cs.length) :
    cs.reverse.takeWhile (· ≠ '.') = ending.reverse ↔ ∃ stem, cs = stem ++ '.' :: ending := by
  constructor
  · intro taken
    have parts := List.takeWhile_append_dropWhile (p := (· ≠ '.')) (l := cs.reverse)
    have stop := List.head?_dropWhile_not (· ≠ '.') cs.reverse
    rw [taken] at parts
    cases rest : cs.reverse.dropWhile (· ≠ '.') with
    | nil =>
      rw [rest, List.append_nil] at parts
      have size := congrArg List.length parts
      simp only [List.length_reverse] at size
      omega
    | cons c more =>
      rw [rest] at parts stop
      have dot : c = '.' := by simpa using stop
      subst dot
      refine ⟨more.reverse, ?_⟩
      simpa using (congrArg List.reverse parts).symm
  · rintro ⟨stem, rfl⟩
    have back : ∀ c ∈ ending.reverse, decide (c ≠ '.') = true := by
      intro c mem
      simpa using plain c (List.mem_reverse.mp mem)
    rw [List.reverse_append, List.reverse_cons, List.append_assoc,
      List.takeWhile_append_of_pos back]
    simp

theorem extensionShown {name ending : String} :
    extension? name = some ending ↔ name ≠ ".." ∧ ending.length + 1 < name.length ∧
      name.toList.reverse.takeWhile (· ≠ '.') = ending.toList.reverse := by
  unfold extension?
  constructor
  · intro found
    simp only at found
    split at found
    · contradiction
    · next long =>
      have taken : name.toList.reverse.takeWhile (· ≠ '.') = ending.toList.reverse := by
        rw [← Option.some.inj found, String.toList_ofList, List.reverse_reverse]
      rw [taken, List.length_reverse, String.length_toList] at long
      exact ⟨fun dots => long (.inl dots), by omega, taken⟩
  · rintro ⟨named, long, taken⟩
    have kept : ¬ (name = ".." ∨ name.length ≤ ending.toList.reverse.length + 1) := by
      rw [List.length_reverse, String.length_toList]
      rintro (dots | short)
      · exact named dots
      · omega
    simp only [taken, if_neg kept, List.reverse_reverse, String.ofList_toList]

theorem extensionIff {name ending : String} (plain : ∀ c ∈ ending.toList, c ≠ '.')
    (filled : ending ≠ "") :
    extension? name = some ending ↔ ∃ stem, stem ≠ "" ∧ name = stem ++ "." ++ ending := by
  rw [extensionShown]
  constructor
  · rintro ⟨_, long, taken⟩
    have longer : ending.toList.length < name.toList.length := by
      rw [String.length_toList, String.length_toList]
      omega
    obtain ⟨stem, whole⟩ := (behindLastDot plain longer).mp taken
    refine ⟨String.ofList stem, ?_, String.toList_inj.mp (by simpa using whole)⟩
    rintro empty
    have none : stem = [] := by simpa using congrArg String.toList empty
    have size := congrArg List.length whole
    rw [none, List.nil_append, List.length_cons, String.length_toList, String.length_toList] at size
    omega
  · rintro ⟨stem, nonempty, rfl⟩
    have size : (stem ++ "." ++ ending).length = stem.length + 1 + ending.length := by
      rw [String.length_append, String.length_append]
      rfl
    have some : stem.length ≠ 0 := by simpa using nonempty
    have more : ending.length ≠ 0 := by simpa using filled
    refine ⟨?_, by omega, ?_⟩
    · intro dots
      have two : "..".length = 2 := rfl
      rw [dots] at size
      omega
    · refine (behindLastDot plain ?_).mpr ⟨stem.toList, by simp⟩
      rw [String.length_toList, String.length_toList]
      omega

end JavaAudit.Path
