import JavaAudit.Decimal.Shortest

/-! How floating point numbers are written: with all digits that they need, or with a fixed number
of places. -/
namespace JavaAudit.Decimal

def digitChars (n : Nat) : List Char := Nat.toDigits 10 n

def stripZeros : Nat → Nat → Nat × Nat
  | 0, n => (n, 0)
  | fuel + 1, n =>
      if n ≠ 0 ∧ n % 10 = 0 then
        let (rest, count) := stripZeros fuel (n / 10)
        (rest, count + 1)
      else (n, 0)

structure Mantissa where
  digits : List Char
  power : Int
  deriving DecidableEq, Repr, Inhabited

def Mantissa.ofDigits (d : Digits) : Mantissa :=
  let (digits, zeros) := stripZeros 20 d.digits
  let text := digitChars digits
  ⟨text, d.power + zeros + text.length - 1⟩

def Mantissa.scientific (m : Mantissa) : List Char :=
  let power := (if m.power < 0 then '-' else '+') :: digitChars m.power.natAbs
  m.digits.take 1 ++ (if m.digits.length ≤ 1 then [] else '.' :: m.digits.drop 1) ++ 'e' :: power

def Mantissa.positional (m : Mantissa) : List Char :=
  if m.power < 0 then ['0', '.'] ++ List.replicate (m.power.natAbs - 1) '0' ++ m.digits
  else
    let whole := m.power.toNat + 1
    let padded := m.digits ++ List.replicate (whole - m.digits.length) '0'
    let places := padded.drop whole
    padded.take whole ++ '.' :: (if places.isEmpty then ['0'] else places)

/-- From 0.00001 up to below 10000000000000000 a number is written without a power of ten. -/
def Mantissa.write (m : Mantissa) : List Char :=
  if -5 ≤ m.power ∧ m.power < 16 then m.positional
  else m.scientific

def Binary.writePlain (x : Binary) : String :=
  String.ofList ((if x.negative then ['-'] else []) ++
    if x.mantissa = 0 then ['0', '.', '0'] else (Mantissa.ofDigits (shortest x)).positional)

def Binary.write (x : Binary) : String :=
  String.ofList ((if x.negative then ['-'] else []) ++
    if x.mantissa = 0 then ['0', '.', '0'] else (Mantissa.ofDigits (shortest x)).write)

def Binary.writePlaces (places : Nat) (x : Binary) : String :=
  let digits := digitChars (Fraction.scale 10 places x.magnitude).round
  let padded := List.replicate (places + 1 - digits.length) '0' ++ digits
  let whole := padded.length - places
  String.ofList ((if x.negative then ['-'] else []) ++ padded.take whole ++ '.' :: padded.drop whole)

def twoPlaces (x : Float) : String :=
  match Binary.ofFloat? x with
  | some b => b.writePlaces 2
  | none => if x.isNaN then "NaN" else if x < 0 then "-inf" else "inf"

end JavaAudit.Decimal
