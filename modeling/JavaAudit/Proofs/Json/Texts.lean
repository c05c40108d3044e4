import JavaAudit.Json.Print
import JavaAudit.Json.Read
import Mathlib.Data.List.Basic

/-! A text can be read back from its written form, whatever characters it holds and whatever follows
it. -/
namespace JavaAudit.Json

theorem readSimple {letter c : Char} (named : simpleEscape? letter = some c) (rest : List Char) :
    readPoints ('\\' :: letter :: rest) =
      (readPoints rest).bind fun (points, rest) => some (c.toNat :: points, rest) := by
  have other : letter ≠ 'u' := by
    rintro rfl
    simp [simpleEscape?] at named
  simp [readPoints, named, other]

theorem readControl {n : Nat} (control : n < 32) (rest : List Char) :
    readPoints ('\\' :: 'u' :: '0' :: '0' :: hexDigit (n / 16) :: hexDigit (n % 16) :: rest) =
      (readPoints rest).bind fun (points, rest) => some (n :: points, rest) := by
  have value : ∀ n < 32, readHex '0' '0' (hexDigit (n / 16)) (hexDigit (n % 16)) = some n := by
    decide
  simp [readPoints, value n control]

theorem readItself {c : Char} (plain : c ≠ '"' ∧ c ≠ '\\') (printed : ¬ c.toNat < 32)
    (rest : List Char) :
    readPoints (c :: rest) =
      (readPoints rest).bind fun (points, rest) => some (c.toNat :: points, rest) := by
  rw [readPoints.eq_def]
  simp [plain, printed]

theorem readEscaped (c : Char) (rest : List Char) :
    readPoints (escapeChar c ++ rest) =
      (readPoints rest).bind fun (points, rest) => some (c.toNat :: points, rest) := by
  have same : ∀ n, c.toNat = n → c = Char.ofNat n := by
    rintro n rfl
    exact (Char.ofNat_toNat c).symm
  unfold escapeChar
  split_ifs with quote backslash newline carriage tab backspace feed control
  · exact readSimple (by simp [quote, simpleEscape?]) rest
  · exact readSimple (by simp [backslash, simpleEscape?]) rest
  · exact readSimple (by simp [newline, simpleEscape?]) rest
  · exact readSimple (by simp [carriage, simpleEscape?]) rest
  · exact readSimple (by simp [tab, simpleEscape?]) rest
  · exact readSimple (by simp [same 8 backspace, simpleEscape?]) rest
  · exact readSimple (by simp [same 12 feed, simpleEscape?]) rest
  · exact readControl control rest
  · exact readItself ⟨quote, backslash⟩ control rest

theorem readBody (cs rest : List Char) :
    readPoints (cs.flatMap escapeChar ++ '"' :: rest) = some (cs.map Char.toNat, rest) := by
  induction cs with
  | nil => rw [readPoints.eq_def]; simp
  | cons c cs ih => rw [List.flatMap_cons, List.append_assoc, readEscaped, ih]; rfl

theorem joinChars (cs : List Char) : joinHalves (cs.map Char.toNat) = some cs := by
  induction cs with
  | nil => rfl
  | cons c cs ih =>
    have valid : c.toNat < 0xD800 ∨ 0xDFFF < c.toNat ∧ c.toNat < 0x110000 := c.valid
    have notHigh : ¬ (0xD800 ≤ c.toNat ∧ c.toNat < 0xDC00) := by omega
    have notLow : ¬ (0xDC00 ≤ c.toNat ∧ c.toNat < 0xE000) := by omega
    rw [joinHalves.eq_def]
    simp [notHigh, notLow, ih]

theorem readQuoted (s : String) (rest : List Char) :
    readText (s.toList.flatMap escapeChar ++ '"' :: rest) = some (s, rest) := by
  simp [readText, readBody, joinChars]

end JavaAudit.Json
