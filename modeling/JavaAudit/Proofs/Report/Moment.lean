import JavaAudit.Report.Moment
import Mathlib.Algebra.Order.Ring.Nat

/-! A moment can be read back from its written form, to the billionth of a second. -/
namespace JavaAudit

theorem paddedDigits (width n : Nat) : ∀ c ∈ padded width n, c.isDigit := by
  intro c inside
  rcases List.mem_append.mp inside with zero | digit
  · rw [List.eq_of_mem_replicate zero]
    rfl
  · exact Nat.isDigit_of_mem_toDigits (by decide) (by decide) digit

theorem paddedLength {width n : Nat} (wide : 0 < width) (small : n < 10 ^ width) :
    (padded width n).length = width := by
  have fits := (Nat.length_toDigits_le_iff (by decide) wide).mpr small
  simp only [padded, List.length_append, List.length_replicate]
  omega

theorem paddedValue (width n : Nat) : Nat.ofDigitChars 10 (padded width n) 0 = n := by
  rw [padded, Nat.ofDigitChars_append, Nat.ofDigitChars_replicate_zero, Nat.mul_zero,
    Nat.ofDigitChars_ten_toDigits]

namespace Moment

theorem readPadded {width n : Nat} (wide : 0 < width) (small : n < 10 ^ width) (rest : List Char) :
    digits? width (padded width n ++ rest) = some (n, rest) := by
  have length := paddedLength wide small
  have digits : (padded width n ++ rest).take width = padded width n := List.take_left' length
  have behind : (padded width n ++ rest).drop width = rest := List.drop_left' length
  have all : (padded width n).all Char.isDigit := List.all_eq_true.mpr (paddedDigits width n)
  simp only [digits?, digits, behind, length, all, paddedValue, and_self, if_true]

theorem readPlaces {width k : Nat} (wide : 0 < width) (most : width ≤ 9) (small : k < 10 ^ width) :
    places? ('.' :: padded width k ++ ['Z']) = some (10 ^ (9 - width) * k, ['Z']) := by
  have length := paddedLength wide small
  have digits : (padded width k ++ ['Z']).takeWhile Char.isDigit = padded width k := by
    rw [List.takeWhile_append_of_pos (paddedDigits width k)]
    simp
  have there : ¬ (padded width k).isEmpty := by
    rw [List.isEmpty_iff_length_eq_zero]
    omega
  have nine : (padded width k ++ List.replicate 9 '0').take 9 =
      padded width k ++ List.replicate (9 - width) '0' := by
    rw [List.take_append, List.take_of_length_le (by omega), List.take_replicate, length]
    congr 2
    omega
  have behind : (padded width k ++ ['Z']).drop width = ['Z'] := List.drop_left' length
  simp only [places?, List.cons_append, digits, if_neg there, nine, length, behind,
    Nat.ofDigitChars_append, paddedValue, Nat.ofDigitChars_replicate_zero]

theorem readWrittenPlaces {nanos : Nat} (small : nanos < 1000000000) :
    places? (places nanos ++ ['Z']) = some (nanos, ['Z']) := by
  unfold places
  split_ifs with none millis micros
  · rw [none]
    rfl
  · rw [readPlaces (by decide) (by decide) (by omega)]
    congr 2
    omega
  · rw [readPlaces (by decide) (by decide) (by omega)]
    congr 2
    omega
  · rw [readPlaces (by decide) (by decide) (by omega)]
    congr 2
    omega

theorem readYear {year : Int} (since : 0 ≤ year) (before : year ≤ 9999) (rest : List Char) :
    year? (writeYear year ++ rest) = some (year, rest) := by
  have four : writeYear year = padded 4 year.natAbs := by
    rw [writeYear, if_neg (by omega), if_neg (by omega)]
  have small : year.natAbs < 10 ^ 4 := by omega
  have length := paddedLength (by decide) small
  have read := readPadded (by decide) small rest
  obtain ⟨c, cs, start⟩ := List.exists_cons_of_length_eq_add_one length
  have digit : c.isDigit := paddedDigits 4 year.natAbs c (by simp [start])
  have unsigned : c ≠ '-' ∧ c ≠ '+' := by
    constructor <;> rintro rfl <;> simp at digit
  have same : (year.natAbs : Int) = year := by omega
  rw [start, List.cons_append] at read
  rw [four, start, List.cons_append]
  simp [year?, unsigned, read, same]

theorem shiftNone {m : Moment} (minute : m.minute ≤ 59) : m.shift true 0 = m := by
  have hours : (m.hour * 60 + m.minute) / 60 = m.hour := by omega
  have minutes : (m.hour * 60 + m.minute) % 60 = m.minute := by omega
  simp [shift, withMinutes, hours, minutes]

theorem readTwo {α : Type} {marks : List Char} {mark : Char} (inside : mark ∈ marks) {n : Nat}
    (small : n < 100) (rest : List Char) {next : Nat × List Char → Option α} {a : α}
    (read : next (n, rest) = some a) :
    (mark? marks (mark :: (padded 2 n ++ rest)) >>= fun cs => digits? 2 cs >>= next) = some a := by
  have marked : mark? marks (mark :: (padded 2 n ++ rest)) = some (padded 2 n ++ rest) :=
    if_pos inside
  have digits : digits? 2 (padded 2 n ++ rest) = some (n, rest) := readPadded (by decide) small rest
  rw [marked, Option.bind_eq_bind, Option.bind_some, digits, Option.bind_eq_bind, Option.bind_some,
    read]

theorem readWrite {m : Moment} (valid : m.isValid) (since : 0 ≤ m.year) (before : m.year ≤ 9999) :
    read? m.write = some m := by
  have fields := valid
  simp only [isValid, Bool.and_eq_true, decide_eq_true_eq] at fields
  obtain ⟨⟨⟨⟨⟨⟨⟨-, month⟩, -⟩, day⟩, hour⟩, minute⟩, second⟩, nanos⟩ := fields
  have longest : daysIn m.year m.month ≤ 31 := by
    unfold daysIn
    split_ifs <;> decide
  have text : m.write.toList = writeYear m.year ++ '-' :: (padded 2 m.month ++ '-' ::
      (padded 2 m.day ++ 'T' :: (padded 2 m.hour ++ ':' :: (padded 2 m.minute ++ ':' ::
        (padded 2 m.second ++ (places m.nanos ++ ['Z'])))))) := by
    simp only [write, String.toList_ofList, List.append_assoc, List.cons_append]
  unfold read?
  rw [text]
  refine Option.bind_eq_some_iff.mpr ⟨_, readYear since before _, ?_⟩
  refine readTwo (by simp) (show m.month < 100 by omega) _ ?_
  refine readTwo (by simp) (show m.day < 100 by omega) _ ?_
  refine readTwo (by simp) (show m.hour < 100 by omega) _ ?_
  refine readTwo (by simp) (show m.minute < 100 by omega) _ ?_
  refine readTwo (by simp) (show m.second < 100 by omega) _ ?_
  refine Option.bind_eq_some_iff.mpr ⟨_, readWrittenPlaces nanos, ?_⟩
  refine Option.bind_eq_some_iff.mpr ⟨(true, 0), rfl, ?_⟩
  exact (if_pos valid).trans (congrArg some (shiftNone minute))

end Moment

end JavaAudit
