import JavaAudit.Json.Print
import JavaAudit.Json.Read
import Mathlib.Data.List.Basic

/-! The written forms of numbers, and that reading takes one of them as a whole, unless more of it
follows. -/
namespace JavaAudit.Json

def AllDigits (cs : List Char) : Prop := ∀ c ∈ cs, c.isDigit

structure Numeral where
  negative : Bool
  whole : List Char
  places : List Char
  power : Option (Bool × List Char)
  wholeThere : whole ≠ []
  wholeDigits : AllDigits whole
  placesDigits : AllDigits places
  powerThere : ∀ p ∈ power, p.2 ≠ []
  powerDigits : ∀ p ∈ power, AllDigits p.2

namespace Numeral

def point (n : Numeral) : List Char := if n.places.isEmpty then [] else '.' :: n.places

def powerChars : Option (Bool × List Char) → List Char
  | none => []
  | some (negative, digits) => 'e' :: (if negative then '-' else '+') :: digits

def write (n : Numeral) : List Char :=
  (if n.negative then ['-'] else []) ++ n.whole ++ n.point ++ powerChars n.power

def powerValue (negative : Bool) (digits : List Char) : Int :=
  if negative then -(value10 digits : Int) else value10 digits

def mantissa (n : Numeral) : Nat := value10 (n.whole ++ n.places)

def value (n : Numeral) : Json :=
  match n.power with
  | some (negative, digits) =>
      .float (floatOf n.negative n.mantissa (powerValue negative digits - n.places.length))
  | none =>
      if n.places.isEmpty ∧ ¬ (n.negative ∧ n.mantissa = 0) then
        .integer (if n.negative then -(n.mantissa : Int) else n.mantissa)
      else .float (floatOf n.negative n.mantissa (-(n.places.length : Int)))

end Numeral

def Stops (rest : List Char) : Prop :=
  ∀ c ∈ rest.head?, c.isDigit = false ∧ c ≠ '.' ∧ c ≠ 'e' ∧ c ≠ 'E'

theorem spanDigits {digits rest : List Char} (all : AllDigits digits)
    (ends : ∀ c ∈ rest.head?, c.isDigit = false) :
    (digits ++ rest).takeWhile Char.isDigit = digits ∧
      (digits ++ rest).dropWhile Char.isDigit = rest := by
  rw [List.takeWhile_append_of_pos all, List.dropWhile_append_of_pos all]
  cases rest with
  | nil => simp
  | cons c rest =>
    have other : c.isDigit = false := ends c rfl
    simp [other]

theorem readPower {power : Option (Bool × List Char)} {rest : List Char}
    (there : ∀ p ∈ power, p.2 ≠ []) (digits : ∀ p ∈ power, AllDigits p.2) (stops : Stops rest) :
    readExponent (Numeral.powerChars power ++ rest) =
      power.map fun p => (Numeral.powerValue p.1 p.2, rest) := by
  cases power with
  | none =>
    cases rest with
    | nil => rfl
    | cons c rest =>
      obtain ⟨-, -, small, capital⟩ := stops c rfl
      simp [Numeral.powerChars, readExponent, small, capital]
  | some p =>
    obtain ⟨negative, cs⟩ := p
    have span := spanDigits (digits _ rfl) fun c first => (stops c first).1
    have more : cs ≠ [] := there _ rfl
    cases negative <;>
      simp [Numeral.powerChars, Numeral.powerValue, readExponent, span, more]

theorem signRead (n : Numeral) (rest : List Char) :
    readSign (n.write ++ rest) =
      (n.negative, n.whole ++ (n.point ++ (Numeral.powerChars n.power ++ rest))) := by
  obtain ⟨c, whole, cut⟩ := List.exists_cons_of_ne_nil n.wholeThere
  have digit : c.isDigit := n.wholeDigits c (by simp [cut])
  have notMinus : c ≠ '-' := by
    rintro rfl
    simp at digit
  cases sign : n.negative
  · simp [Numeral.write, sign, cut, readSign, notMinus]
  · simp [Numeral.write, sign, readSign]

theorem powerStops (power : Option (Bool × List Char)) {rest : List Char} (stops : Stops rest) :
    ∀ c ∈ (Numeral.powerChars power ++ rest).head?, c.isDigit = false ∧ c ≠ '.' := by
  cases power with
  | none => exact fun c first => ⟨(stops c first).1, (stops c first).2.1⟩
  | some p => simp [Numeral.powerChars]

theorem placesRead (n : Numeral) {rest : List Char}
    (ends : ∀ c ∈ rest.head?, c.isDigit = false ∧ c ≠ '.') :
    readPlaces (n.point ++ rest) = (n.places, rest) ∧
      ∀ c ∈ (n.point ++ rest).head?, c.isDigit = false := by
  have span := spanDigits n.placesDigits fun c first => (ends c first).1
  unfold Numeral.point
  split_ifs with none
  · rw [List.isEmpty_iff.mp none]
    refine ⟨?_, fun c first => (ends c first).1⟩
    cases rest with
    | nil => rfl
    | cons c rest =>
      have notPoint : c ≠ '.' := (ends c rfl).2
      simp [readPlaces, notPoint]
  · simp [readPlaces, span]

theorem readNumeral (n : Numeral) {rest : List Char} (stops : Stops rest) :
    readNumber (n.write ++ rest) = some (n.value, rest) := by
  obtain ⟨places, ends⟩ := placesRead n (powerStops n.power stops)
  have whole := spanDigits n.wholeDigits ends
  have power := readPower n.powerThere n.powerDigits stops
  have there : ¬ n.whole.isEmpty := by simp [n.wholeThere]
  unfold readNumber
  simp only [signRead, whole, places, power, if_neg there]
  cases written : n.power with
  | none =>
    simp only [Option.map_none, Numeral.value, written]
    by_cases integer : n.places.isEmpty ∧ ¬ (n.negative ∧ n.mantissa = 0)
    · rw [if_pos integer]
      exact if_pos integer
    · rw [if_neg integer]
      exact if_neg integer
  | some p => simp only [Option.map_some, Numeral.value, written, Numeral.mantissa]

theorem digitCharsThere (n : Nat) : Decimal.digitChars n ≠ [] := Nat.toDigits_ne_nil

theorem digitCharsDigits (n : Nat) : AllDigits (Decimal.digitChars n) := fun _ inside =>
  Nat.isDigit_of_mem_toDigits (by decide) (by decide) inside

theorem valueDigitChars (n : Nat) : value10 (Decimal.digitChars n) = n :=
  Nat.ofDigitChars_ten_toDigits

def Numeral.ofInteger (n : Int) : Numeral where
  negative := n < 0
  whole := Decimal.digitChars n.natAbs
  places := []
  power := none
  wholeThere := digitCharsThere _
  wholeDigits := digitCharsDigits _
  placesDigits := by simp [AllDigits]
  powerThere := by simp
  powerDigits := by simp

theorem integerWrite (n : Int) : (Numeral.ofInteger n).write = integerChars n := by
  simp [Numeral.write, Numeral.ofInteger, Numeral.point, Numeral.powerChars, integerChars]

theorem integerValue (n : Int) : (Numeral.ofInteger n).value = .integer n := by
  have digits : value10 (Decimal.digitChars n.natAbs ++ []) = n.natAbs := by
    rw [List.append_nil, valueDigitChars]
  simp only [Numeral.value, Numeral.mantissa, Numeral.ofInteger, digits, decide_eq_true_eq]
  rw [if_pos ⟨rfl, by omega⟩]
  congr 1
  split_ifs <;> omega

def Numeral.IsFloat (n : Numeral) : Prop := n.places ≠ [] ∨ n.power ≠ none

theorem floatValue {n : Numeral} (float : n.IsFloat) : ∃ x, n.value = .float x := by
  unfold Numeral.value
  cases written : n.power with
  | some p => exact ⟨_, rfl⟩
  | none =>
    have places : n.places ≠ [] := float.resolve_right (by simp [written])
    exact ⟨_, if_neg (by simp [places])⟩

theorem scientificNumeral (negative : Bool) {m : Decimal.Mantissa} (there : m.digits ≠ [])
    (all : AllDigits m.digits) :
    ∃ n : Numeral, n.IsFloat ∧ n.write = (if negative then ['-'] else []) ++ m.scientific := by
  refine ⟨{
    negative
    whole := m.digits.take 1
    places := m.digits.drop 1
    power := some (m.power < 0, Decimal.digitChars m.power.natAbs)
    wholeThere := by simpa using there
    wholeDigits := fun c inside => all c (List.mem_of_mem_take inside)
    placesDigits := fun c inside => all c (List.mem_of_mem_drop inside)
    powerThere := by simpa using digitCharsThere _
    powerDigits := by simpa using digitCharsDigits _ }, .inr (by simp), ?_⟩
  have one : (m.digits.drop 1).isEmpty ↔ m.digits.length ≤ 1 := by
    rw [List.isEmpty_iff, List.drop_eq_nil_iff]
  simp only [Numeral.write, Numeral.point, Numeral.powerChars, Decimal.Mantissa.scientific, one,
    decide_eq_true_eq, List.append_assoc]

theorem pointNumeral (negative : Bool) {whole places : List Char} (wholeThere : whole ≠ [])
    (wholeDigits : AllDigits whole) (placesThere : places ≠ []) (placesDigits : AllDigits places) :
    ∃ n : Numeral, n.IsFloat ∧
      n.write = (if negative then ['-'] else []) ++ (whole ++ '.' :: places) := by
  refine ⟨{
    negative, whole, places, wholeThere, wholeDigits, placesDigits
    power := none
    powerThere := by simp
    powerDigits := by simp }, .inl placesThere, ?_⟩
  simp [Numeral.write, Numeral.point, Numeral.powerChars, placesThere]

theorem zerosDigits (count : Nat) : AllDigits (List.replicate count '0') := by
  intro c inside
  rw [List.eq_of_mem_replicate inside]
  rfl

theorem positionalNumeral (negative : Bool) {m : Decimal.Mantissa} (there : m.digits ≠ [])
    (all : AllDigits m.digits) :
    ∃ n : Numeral, n.IsFloat ∧ n.write = (if negative then ['-'] else []) ++ m.positional := by
  unfold Decimal.Mantissa.positional
  by_cases small : m.power < 0
  · rw [if_pos small]
    exact @pointNumeral negative ['0'] (List.replicate (m.power.natAbs - 1) '0' ++ m.digits)
      (by simp) (zerosDigits 1) (by simp [there]) (List.forall_mem_append.mpr ⟨zerosDigits _, all⟩)
  · rw [if_neg small]
    let whole := m.power.toNat + 1
    let padded := m.digits ++ List.replicate (whole - m.digits.length) '0'
    have digits : AllDigits padded := List.forall_mem_append.mpr ⟨all, zerosDigits _⟩
    refine pointNumeral negative (by simp [there])
      (fun c inside => digits c (List.mem_of_mem_take inside)) ?_ ?_
    · split_ifs with none
      · simp
      · simpa using none
    · split_ifs
      · exact zerosDigits 1
      · exact fun c inside => digits c (List.mem_of_mem_drop inside)

theorem writeNumeral (b : Decimal.Binary) :
    ∃ n : Numeral, n.IsFloat ∧ n.write = b.write.toList := by
  let m := Decimal.Mantissa.ofDigits (Decimal.shortest b)
  have there : m.digits ≠ [] := digitCharsThere _
  have all : AllDigits m.digits := digitCharsDigits _
  unfold Decimal.Binary.write
  rw [String.toList_ofList]
  by_cases zero : b.mantissa = 0
  · rw [if_pos zero]
    exact @positionalNumeral b.negative ⟨['0'], 0⟩ (by simp) (zerosDigits 1)
  · rw [if_neg zero, Decimal.Mantissa.write]
    by_cases plain : -5 ≤ m.power ∧ m.power < 16
    · rw [if_pos plain]
      exact positionalNumeral b.negative there all
    · rw [if_neg plain]
      exact scientificNumeral b.negative there all

end JavaAudit.Json
