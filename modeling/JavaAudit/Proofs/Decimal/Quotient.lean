import JavaAudit.Decimal.Binary
import JavaAudit.Metrics
import Mathlib.Algebra.Order.Ring.Nat
import Mathlib.Data.Nat.Log

/-! A quotient of two counters is a number: neither too large for one, nor undefined. The counters
become numbers with 53 binary digits, and so does each quotient of two of them. -/
namespace JavaAudit.Decimal
open Float.Model UnpackedFloat

theorem log2DivPow (m k : Nat) : (m / 2 ^ k).log2 = m.log2 - k := by
  rw [Nat.log2_eq_log_two, Nat.log2_eq_log_two, Nat.log_div_base_pow]

theorem log2MulPow {m : Nat} (nonzero : m ≠ 0) (k : Nat) : (m * 2 ^ k).log2 = m.log2 + k := by
  have large := Nat.log2_self_le nonzero
  have small := @Nat.lt_log2_self m
  refine (Nat.log2_eq_iff (Nat.mul_ne_zero nonzero (Nat.two_pow_pos k).ne')).mpr ⟨?_, ?_⟩
  · rw [Nat.pow_add]
    exact Nat.mul_le_mul_right _ large
  · rw [Nat.add_right_comm, Nat.pow_add]
    exact Nat.mul_lt_mul_of_pos_right small (Nat.two_pow_pos k)

theorem shiftMantissa (em : ExtendedMantissa) (k : Nat) :
    (em >>> k).mantissa = em.mantissa / 2 ^ k := by
  change (k.repeat ExtendedMantissa.shiftRightOne em).mantissa = _
  induction k with
  | zero => simp [Nat.repeat]
  | succ k ih =>
    rw [Nat.repeat, ExtendedMantissa.shiftRightOne, ih, Nat.div_div_eq_div_mul, Nat.pow_succ]

theorem startMantissa (m : Nat) (accuracy : Accuracy) :
    (ExtendedMantissa.ofMantissaAndAccuracy m accuracy).mantissa = m := by
  unfold ExtendedMantissa.ofMantissaAndAccuracy
  split <;> rfl

theorem roundedMantissa (em : ExtendedMantissa) :
    em.mantissa ≤ em.roundedMantissa ∧ em.roundedMantissa ≤ em.mantissa + 1 := by
  unfold ExtendedMantissa.roundedMantissa
  cases em.accuracy with
  | exact => exact ⟨Nat.le_refl _, Nat.le_succ _⟩
  | inexact order =>
    cases order with
    | lt => exact ⟨Nat.le_refl _, Nat.le_succ _⟩
    | eq => exact ⟨Nat.le_add_right _ _, Nat.add_le_add_left (by omega) _⟩
    | gt => exact ⟨Nat.le_succ _, Nat.le_refl _⟩

theorem shiftToDigits {m : Nat} {e : Int} (long : 52 ≤ m.log2) (above : -1074 ≤ e)
    (accuracy : Accuracy) :
    (shiftToTargetExponent .binary64 m e accuracy).1.mantissa = m / 2 ^ (m.log2 - 52) ∧
      (shiftToTargetExponent .binary64 m e accuracy).2 = e + (m.log2 - 52 : Nat) := by
  have least : Format.binary64.minExponent = -1074 := by decide
  have bits : Format.binary64.mantissaBits = 53 := by decide
  have amount : (Format.binary64.targetExponent (totalExponent m e) - e).toNat = m.log2 - 52 := by
    simp only [Format.targetExponent, totalExponent, least, bits]
    omega
  simp only [shiftToTargetExponent, shiftToExponent, amount, shiftMantissa, startMantissa, and_self]

theorem nonzeroOfLog2 {m : Nat} (long : 52 ≤ m.log2) : m ≠ 0 := by
  rintro rfl
  simp at long

theorem roundToDigits (s : Sign) {m : Nat} {e : Int} (long : 52 ≤ m.log2) (above : -1074 ≤ e)
    (accuracy : Accuracy) :
    ∃ m' e' there, roundWithAccuracy .binary64 s m e accuracy = .finite s m' e' there ∧
      m'.log2 = 52 ∧ e ≤ e' ∧ e' ≤ e + (m.log2 - 51 : Nat) := by
  obtain ⟨cut, moved⟩ := shiftToDigits long above accuracy
  have digits : (m / 2 ^ (m.log2 - 52)).log2 = 52 := by
    rw [log2DivPow]
    omega
  obtain ⟨large, small⟩ := (Nat.log2_eq_iff (nonzeroOfLog2 digits.ge)).mp digits
  unfold roundWithAccuracy
  generalize shiftToTargetExponent .binary64 m e accuracy = first at *
  obtain ⟨em, e₁⟩ := first
  change em.mantissa = _ at cut
  change e₁ = _ at moved
  obtain ⟨least, most⟩ := roundedMantissa em
  have rounded : em.roundedMantissa ≠ 0 := by omega
  have long' : 52 ≤ em.roundedMantissa.log2 := (Nat.le_log2 rounded).mpr (by omega)
  have short' : em.roundedMantissa.log2 < 54 := (Nat.log2_lt rounded).mpr (by omega)
  obtain ⟨cut', moved'⟩ := shiftToDigits long' (show -1074 ≤ e₁ by omega) .exact
  have digits' : (em.roundedMantissa / 2 ^ (em.roundedMantissa.log2 - 52)).log2 = 52 := by
    rw [log2DivPow]
    omega
  have there := nonzeroOfLog2 digits'.ge
  rw [← cut'] at digits' there
  refine ⟨_, _, Nat.pos_of_ne_zero there, dif_neg there, digits', ?_, ?_⟩
  · exact Int.le_trans (by omega) moved'.ge
  · exact Int.le_trans moved'.le (by omega)

theorem targetExponent (t : Int) : Format.binary64.targetExponent t = max (t - 53) (-1074) := rfl

theorem ofNatDigits {n : Nat} (nonzero : n ≠ 0) (small : n < 2 ^ 64) :
    ∃ m e there, UnpackedFloat.ofNat .binary64 n = .finite .positive m e there ∧
      m.log2 = 52 ∧ -52 ≤ e ∧ e ≤ 12 := by
  have short : n.log2 < 64 := (Nat.log2_lt nonzero).mpr small
  have positive : compare (n : Int) 0 = .gt := by
    rw [Int.compare_eq_gt]
    omega
  have amount : (0 - Format.binary64.targetExponent (totalExponent n 0)).toNat = 52 - n.log2 := by
    rw [targetExponent, totalExponent]
    omega
  have digits : (n * 2 ^ (52 - n.log2)).log2 = n.log2 + (52 - n.log2) := log2MulPow nonzero _
  obtain ⟨m, e, there, rounded, bits, above, below⟩ :=
    @roundToDigits .positive (n * 2 ^ (52 - n.log2)) (0 - (52 - n.log2 : Nat)) (by omega) (by omega)
      .exact
  refine ⟨m, e, there, ?_, bits, by omega, by omega⟩
  rw [← rounded]
  simp only [UnpackedFloat.ofNat, UnpackedFloat.ofInt, UnpackedFloat.normalize, positive,
    UnpackedFloat.round, Int.toNat_natCast, decreaseExponent, amount, Nat.shiftLeft_eq]

theorem exponentBias : Format.binary64.exponentBias = 1023 := by decide

theorem packDigits (s : Sign) {m : Nat} {e : Int} (there : 0 < m) (digits : m.log2 = 52)
    (below : e ≤ 971) :
    UnpackedFloat.pack .binary64 (.finite s m e there) =
      packComponents .binary64 s (BitVec.ofNat 11 (e + 1023 + 52).toNat) (BitVec.ofNat 52 m) := by
  delta UnpackedFloat.pack
  simp only [exponentBias]
  rw [if_neg (by omega), if_pos (by rw [digits]; rfl)]
  rfl

theorem finiteEq {s : Sign} {m m' : Nat} {e e' : Int} {there : 0 < m} {there' : 0 < m'}
    (mantissa : m = m') (exponent : e = e') :
    UnpackedFloat.finite s m e there = .finite s m' e' there' := by
  subst mantissa exponent
  rfl

theorem unpackDigits (s : Sign) {exponent : BitVec 11} (mantissa : BitVec 52)
    (notMost : exponent ≠ -1#11) (notLeast : exponent ≠ 0#11) :
    ∃ s' m there, UnpackedFloat.unpack .binary64 (packComponents .binary64 s exponent mantissa) =
      .finite s' m (exponent.toNat - (1023 + 52)) there ∧ m.log2 = 52 := by
  have value : (1#1 ++ mantissa).toNat = 2 ^ 52 + mantissa.toNat := by
    rw [BitVec.toNat_append, ← Nat.shiftLeft_add_eq_or_of_lt mantissa.isLt]
    rfl
  have small := mantissa.isLt
  have exponentBack : @unpackExponent .binary64 (packComponents .binary64 s exponent mantissa) =
      exponent := unpackExponent_packComponents
  have mantissaBack : @unpackMantissa .binary64 (packComponents .binary64 s exponent mantissa) =
      mantissa := unpackMantissa_packComponents
  delta UnpackedFloat.unpack
  rw [if_neg (by rw [exponentBack]; exact notMost), if_neg (by rw [exponentBack]; exact notLeast)]
  refine ⟨_, (1#1 ++ mantissa).toNat, by omega, finiteEq ?_ ?_, (Nat.log2_eq_iff (by omega)).mpr ?_⟩
  · rw [mantissaBack]
  · rw [exponentBack, exponentBias]
    rfl
  · omega

theorem unpackPack {s : Sign} {m : Nat} {e : Int} (there : 0 < m) (digits : m.log2 = 52)
    (above : -1074 ≤ e) (below : e ≤ 971) :
    ∃ s' m' there', UnpackedFloat.unpack .binary64 (UnpackedFloat.pack .binary64
      (.finite s m e there)) = .finite s' m' e there' ∧ m'.log2 = 52 := by
  let biased := BitVec.ofNat 11 (e + 1023 + 52).toNat
  have value : (biased.toNat : Int) = e + 1075 := by
    rw [BitVec.toNat_ofNat]
    omega
  have notMost : biased ≠ -1#11 := by
    intro most
    have last : biased.toNat = 2047 := by rw [most]; decide
    omega
  have notLeast : biased ≠ 0#11 := by
    intro least
    have first : biased.toNat = 0 := by rw [least]; decide
    omega
  have exponent : (biased.toNat : Int) - (1023 + 52) = e := by omega
  have unpacked := unpackDigits s (BitVec.ofNat 52 m) notMost notLeast
  rw [exponent, ← packDigits s there digits below] at unpacked
  exact unpacked

theorem divDigits {s₁ s₂ : Sign} {m₁ m₂ : Nat} {e₁ e₂ : Int} (there₁ : 0 < m₁) (there₂ : 0 < m₂)
    (digits₁ : m₁.log2 = 52) (digits₂ : m₂.log2 = 52) (above : -1021 ≤ e₁ - e₂) :
    ∃ s m e there, UnpackedFloat.div .binary64 (.finite s₁ m₁ e₁ there₁) (.finite s₂ m₂ e₂ there₂) =
      .finite s m e there ∧ m.log2 = 52 ∧ e₁ - e₂ - 53 ≤ e ∧ e ≤ e₁ - e₂ - 51 := by
  obtain ⟨large₁, small₁⟩ := (Nat.log2_eq_iff there₁.ne').mp digits₁
  obtain ⟨large₂, small₂⟩ := (Nat.log2_eq_iff there₂.ne').mp digits₂
  have target : min (e₁ - e₂) (Format.binary64.targetExponent
      (totalExponent m₁ e₁ - totalExponent m₂ e₂)) = e₁ - e₂ - 53 := by
    rw [targetExponent, totalExponent, totalExponent]
    omega
  have amount : (e₁ - e₂ - (e₁ - e₂ - 53)).toNat = 53 := by omega
  have large : 2 ^ 52 ≤ m₁ * 2 ^ 53 / m₂ := (Nat.le_div_iff_mul_le there₂).mpr (by omega)
  have small : m₁ * 2 ^ 53 / m₂ < 2 ^ 54 := (Nat.div_lt_iff_lt_mul there₂).mpr (by omega)
  have nonzero : m₁ * 2 ^ 53 / m₂ ≠ 0 := by omega
  have short := (Nat.log2_lt nonzero).mpr small
  obtain ⟨m, e, there, rounded, digits, least, most⟩ := roundToDigits (s₁ / s₂)
    ((Nat.le_log2 nonzero).mpr large) (show -1074 ≤ e₁ - e₂ - 53 by omega)
    (accuracyOfFraction (m₁ * 2 ^ 53 % m₂) m₂)
  have core : divCore .binary64 m₁ e₁ m₂ e₂ = (m₁ * 2 ^ 53 / m₂, e₁ - e₂ - 53,
      accuracyOfFraction (m₁ * 2 ^ 53 % m₂) m₂) := by
    simp only [divCore, target, amount, Nat.shiftLeft_eq]
  refine ⟨s₁ / s₂, m, e, there, ?_, digits, least, by omega⟩
  change roundWithAccuracy .binary64 (s₁ / s₂) (divCore .binary64 m₁ e₁ m₂ e₂).1
    (divCore .binary64 m₁ e₁ m₂ e₂).2.1 (divCore .binary64 m₁ e₁ m₂ e₂).2.2 = _
  rw [core, rounded]

theorem counterDigits {n : UInt64} (nonzero : n ≠ 0) :
    ∃ s m e there, n.toFloat.toModel.unpack = .finite s m e there ∧
      m.log2 = 52 ∧ -52 ≤ e ∧ e ≤ 12 := by
  have value : n.toNat ≠ 0 := fun zero => nonzero (UInt64.toNat_inj.mp zero)
  obtain ⟨m, e, there, rounded, digits, least, most⟩ := ofNatDigits value n.toNat_lt
  obtain ⟨s', m', there', unpacked, digits'⟩ :=
    @unpackPack .positive m e there digits (by omega) (by omega)
  rw [← rounded] at unpacked
  exact ⟨s', m', e, there', unpacked, digits', least, most⟩

theorem ratioFinite (part whole : UInt64) : (ratio part whole).isFinite := by
  unfold ratio
  split_ifs with none
  · rfl
  obtain ⟨s₂, m₂, e₂, there₂, unpacked₂, digits₂, least₂, most₂⟩ := counterDigits none
  change (Float.Model.pack (UnpackedFloat.div .binary64 part.toFloat.toModel.unpack
    whole.toFloat.toModel.unpack)).unpack.isFinite
  rw [unpacked₂]
  by_cases zero : part = 0
  · have unpacked : part.toFloat.toModel.unpack = .zero .positive := by rw [zero]; rfl
    have quotient : UnpackedFloat.div .binary64 (.zero .positive) (.finite s₂ m₂ e₂ there₂) =
      .zero (.positive / s₂) := rfl
    rw [unpacked, quotient]
    cases s₂ <;> decide
  · obtain ⟨s₁, m₁, e₁, there₁, unpacked₁, digits₁, least₁, most₁⟩ := counterDigits zero
    rw [unpacked₁]
    obtain ⟨s, m, e, there, quotient, digits, least, most⟩ :=
      @divDigits s₁ s₂ m₁ m₂ e₁ e₂ there₁ there₂ digits₁ digits₂ (by omega)
    obtain ⟨s', m', there', unpacked, -⟩ := @unpackPack s m e there digits (by omega) (by omega)
    rw [quotient]
    change (UnpackedFloat.unpack .binary64 (UnpackedFloat.pack .binary64 _)).isFinite
    rw [unpacked]
    rfl

theorem exponentValue (bits : UInt64) :
    (@unpackExponent .binary64 bits.toBitVec).toNat = bits.toNat / 2 ^ 52 % 2 ^ 11 := by
  rw [unpackExponent, BitVec.toNat_cast, BitVec.extractLsb_toNat, Nat.shiftRight_eq_div_pow]
  rfl

theorem finiteIff (x : Float) :
    x.isFinite = true ↔ x.toBits.toNat / 2 ^ 52 % 2 ^ 11 ≠ 2047 := by
  change (UnpackedFloat.unpack .binary64 x.toBits.toBitVec).isFinite = true ↔ _
  rw [← exponentValue]
  delta UnpackedFloat.unpack
  by_cases most : @unpackExponent .binary64 x.toBits.toBitVec = -1#11
  · rw [if_pos most, most]
    refine iff_of_false ?_ fun less => less rfl
    split <;> exact Bool.false_ne_true
  · rw [if_neg most]
    refine iff_of_true ?_ fun same => most (BitVec.eq_of_toNat_eq same)
    by_cases least : @unpackExponent .binary64 x.toBits.toBitVec = 0#11
    · rw [if_pos least]
      by_cases none : @unpackMantissa .binary64 x.toBits.toBitVec = 0#52
      · rw [dif_pos none]
        rfl
      · rw [dif_neg none]
        rfl
    · rw [if_neg least]
      rfl

theorem ofFloatSome (x : Float) : (Binary.ofFloat? x).isSome = x.isFinite := by
  rw [Bool.eq_iff_iff, finiteIff]
  unfold Binary.ofFloat?
  simp only [Nat.pow_eq]
  split_ifs with most none <;> simp [most]

end JavaAudit.Decimal
