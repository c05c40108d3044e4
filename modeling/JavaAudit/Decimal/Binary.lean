/-! The exact value of a floating point number, and exact quotients. -/
namespace JavaAudit.Decimal

/-- The value `mantissa * 2 ^ exponent` with a sign; zero has a sign too. -/
structure Binary where
  negative : Bool
  mantissa : Nat
  exponent : Int
  deriving DecidableEq, Repr, Inhabited

structure Fraction where
  num : Nat
  den : Nat
  deriving DecidableEq, Repr, Inhabited

namespace Fraction

def scale (base : Nat) (power : Int) (x : Fraction) : Fraction :=
  if 0 ≤ power then { x with num := x.num * Nat.pow base power.toNat }
  else { x with den := x.den * Nat.pow base (-power).toNat }

def floor (x : Fraction) : Nat := x.num / x.den

def less (x y : Fraction) : Bool := x.num * y.den < y.num * x.den

/-- The nearest whole number; halfway between two it is the even one. -/
def round (x : Fraction) : Nat :=
  let below := x.num / x.den
  let twice := 2 * (x.num % x.den)
  if twice < x.den ∨ (twice = x.den ∧ below % 2 = 0) then below else below + 1

end Fraction

namespace Binary

/-- Nothing for infinities and for what is not a number. -/
def ofFloat? (x : Float) : Option Binary :=
  let bits : Nat := x.toBits.toNat
  let negative : Bool := Nat.pow 2 63 ≤ bits
  let biased : Nat := bits / Nat.pow 2 52 % Nat.pow 2 11
  let fraction : Nat := bits % Nat.pow 2 52
  if biased = 2047 then none
  else if biased = 0 then some ⟨negative, fraction, -1074⟩
  else some ⟨negative, Nat.pow 2 52 + fraction, Int.ofNat biased - 1075⟩

def magnitude (x : Binary) : Fraction := Fraction.scale 2 x.exponent ⟨x.mantissa, 1⟩

end Binary

end JavaAudit.Decimal
