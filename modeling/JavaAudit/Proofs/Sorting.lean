import Mathlib.Data.List.Basic

/-! What sorting does to the order of a list. An element is put in front of the first one that it may
precede, so elements that may precede each other keep their order, and from fewer elements fewer are
sorted. -/
namespace JavaAudit

variable {α : Type} {le : α → α → Bool} (trans : ∀ a b c, le a b = true → le b c = true → le a c = true)
  (total : ∀ a b, (le a b || le b a) = true)
include trans total

theorem sortCons (a : α) (xs : List α) :
    ∃ front back, (a :: xs).mergeSort le = front ++ a :: back ∧ xs.mergeSort le = front ++ back ∧
      (∀ b ∈ front, (!le a b) = true) ∧ ∀ b ∈ back, le a b = true := by
  have order := List.pairwise_mergeSort trans total (a :: xs)
  obtain ⟨front, back, placed, without, later⟩ := List.mergeSort_cons trans total a xs
  rw [placed] at order
  have first := (List.pairwise_cons.mp (List.pairwise_append.mp order).2.1).1
  exact ⟨front, back, placed, without, later, first⟩

theorem sortConsFilter (a : α) (xs : List α) :
    (a :: xs).mergeSort le =
      (xs.mergeSort le).filter (!le a ·) ++ a :: (xs.mergeSort le).filter (le a ·) := by
  obtain ⟨front, back, placed, without, later, first⟩ := sortCons trans total a xs
  rw [placed, without, List.filter_append, List.filter_append, List.filter_eq_self.mpr later,
    List.filter_eq_self.mpr first, List.filter_eq_nil_iff.mpr (by simpa using first),
    List.filter_eq_nil_iff.mpr (by simpa using later), List.append_nil, List.nil_append]

theorem sortSublist {xs ys : List α} (among : xs.Sublist ys) :
    (xs.mergeSort le).Sublist (ys.mergeSort le) := by
  induction among with
  | slnil => exact .refl _
  | cons a _ ih =>
    obtain ⟨front, back, placed, without, -⟩ := sortCons trans total a _
    rw [placed]
    exact (without ▸ ih).middle a
  | cons_cons a _ ih =>
    rw [sortConsFilter trans total, sortConsFilter trans total]
    exact (ih.filter _).append ((ih.filter _).cons_cons a)

theorem sortFilter {p : α → Bool} (alike : ∀ a b, p a = true → p b = true → le a b = true)
    (xs : List α) : (xs.mergeSort le).filter p = xs.filter p := by
  have ordered : (xs.filter p).Pairwise fun a b => le a b = true := by
    refine List.pairwise_of_forall_mem_list fun a left b right => ?_
    exact alike a b (List.mem_filter.mp left).2 (List.mem_filter.mp right).2
  have kept := (List.sublist_mergeSort trans total ordered List.filter_sublist).filter p
  have same : (xs.filter p).filter p = xs.filter p := by simp
  rw [same] at kept
  exact (kept.eq_of_length ((List.mergeSort_perm xs le).filter p).length_eq.symm).symm

omit trans total

theorem keyTrans (key : α → Nat) (a b c : α) (left : decide (key a ≤ key b) = true)
    (right : decide (key b ≤ key c) = true) : decide (key a ≤ key c) = true := by
  simp only [decide_eq_true_eq] at *
  omega

theorem keyTotal (key : α → Nat) (a b : α) :
    (decide (key a ≤ key b) || decide (key b ≤ key a)) = true := by
  simp only [Bool.or_eq_true, decide_eq_true_eq]
  omega

end JavaAudit
