import JavaAudit.Decimal.Binary

/-! The fewest decimal digits that still name a floating point number, and of those the nearest. -/
namespace JavaAudit.Decimal

structure Digits where
  digits : Nat
  power : Int
  deriving DecidableEq, Repr, Inhabited

/-- The values that round to a number lie between these two, which count if the mantissa is even. -/
structure Interval where
  low : Fraction
  high : Fraction
  closed : Bool
  deriving DecidableEq, Repr, Inhabited

def Interval.contains (i : Interval) (x : Fraction) : Bool :=
  if i.closed then !x.less i.low && !i.high.less x else i.low.less x && x.less i.high

/-- Below a power of two the numbers lie twice as close. -/
def Binary.interval (x : Binary) : Interval where
  low := Fraction.scale 2 (x.exponent - 2)
    ⟨4 * x.mantissa - (if x.mantissa = Nat.pow 2 52 ∧ x.exponent ≠ -1074 then 1 else 2), 1⟩
  high := Fraction.scale 2 (x.exponent - 2) ⟨4 * x.mantissa + 2, 1⟩
  closed := x.mantissa % 2 == 0

def leadingPower (x : Fraction) : Nat → Int → Int
  | 0, power => power
  | fuel + 1, power =>
      if 0 < (Fraction.scale 10 (-power) x).floor then power else leadingPower x fuel (power - 1)

/-- The two neighbours of a value among the multiples of a power of ten, as far as they lie in the
interval; the nearer one, and of two equally near the even one. -/
def onGrid (i : Interval) (x : Fraction) (power : Int) : Option Digits :=
  let scaled := Fraction.scale 10 (-power) x
  let below := scaled.floor
  let inside (n : Nat) : Bool := i.contains (Fraction.scale 10 power ⟨n, 1⟩)
  match inside below, inside (below + 1) with
  | true, true => some ⟨scaled.round, power⟩
  | true, false => some ⟨below, power⟩
  | false, true => some ⟨below + 1, power⟩
  | false, false => none

def coarsest (i : Interval) (x : Fraction) : Nat → Int → Digits
  | 0, power => ⟨(Fraction.scale 10 (-power) x).round, power⟩
  | fuel + 1, power => (onGrid i x power).getD (coarsest i x fuel (power - 1))

def shortest (x : Binary) : Digits :=
  coarsest x.interval x.magnitude 17 (leadingPower x.magnitude 640 309)

end JavaAudit.Decimal
