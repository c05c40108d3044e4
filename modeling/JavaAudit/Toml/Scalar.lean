import JavaAudit.Toml.Value

/-! The values that are written without quotes: truth values, numbers, dates and times. -/
namespace JavaAudit.Toml

def plainDigits (isDigit : Char → Bool) : List Char → Option (List Char)
  | [] => none
  | [c] => if isDigit c then some [c] else none
  | c :: '_' :: rest => if isDigit c then (plainDigits isDigit rest).map (c :: ·) else none
  | c :: rest => if isDigit c then (plainDigits isDigit rest).map (c :: ·) else none

def digitValue (c : Char) : Nat :=
  if c.isDigit then c.toNat - 48 else if 'a' ≤ c then c.toNat - 87 else c.toNat - 55

def valueIn (base : Nat) (digits : List Char) : Nat :=
  digits.foldl (fun n c => n * base + digitValue c) 0

def isHexDigit (c : Char) : Bool := c.isDigit || ('a' ≤ c && c ≤ 'f') || ('A' ≤ c && c ≤ 'F')

def inBase (base : Nat) (isDigit : Char → Bool) (cs : List Char) : Option Value :=
  (plainDigits isDigit cs).map fun digits => .integer (valueIn base digits)

def splitSign : List Char → Bool × List Char
  | '-' :: rest => (true, rest)
  | '+' :: rest => (false, rest)
  | cs => (false, cs)

def decimalDigits (cs : List Char) : Option (List Char) := do
  let digits ← plainDigits Char.isDigit cs
  if cs.head? = some '0' ∧ 1 < cs.length then none else some digits

def isExponentMark (c : Char) : Bool := c = 'e' || c = 'E'

def float? (cs : List Char) : Option Value := do
  let (negative, cs) := splitSign cs
  let mantissa := cs.takeWhile (!isExponentMark ·)
  let whole ← decimalDigits (mantissa.takeWhile (· ≠ '.'))
  let places ← match mantissa.dropWhile (· ≠ '.') with
    | [] => some []
    | _ :: places => plainDigits Char.isDigit places
  let power ← match cs.dropWhile (!isExponentMark ·) with
    | [] => some (0 : Int)
    | _ :: rest => do
        let (negative, rest) := splitSign rest
        let digits ← plainDigits Char.isDigit rest
        let size : Int := valueIn 10 digits
        some (if negative then -size else size)
  let shift : Int := power - places.length
  let x := Float.ofScientific (valueIn 10 (whole ++ places)) (shift < 0) shift.natAbs
  some (.float (if negative then -x else x))

def isLeapYear (year : Nat) : Bool := year % 4 = 0 && (year % 100 ≠ 0 || year % 400 = 0)

def daysIn (year month : Nat) : Nat :=
  if month = 2 then (if isLeapYear year then 29 else 28)
  else if month = 4 ∨ month = 6 ∨ month = 9 ∨ month = 11 then 30 else 31

def fixedDigits (count : Nat) (cs : List Char) : Option (Nat × List Char) :=
  let digits := cs.take count
  if digits.length = count ∧ digits.all Char.isDigit then
    some (valueIn 10 digits, cs.drop count)
  else none

def expect (c : Char) : List Char → Option (List Char)
  | d :: rest => if c = d then some rest else none
  | [] => none

def date? (cs : List Char) : Option (List Char) := do
  let (year, cs) ← fixedDigits 4 cs
  let cs ← expect '-' cs
  let (month, cs) ← fixedDigits 2 cs
  let cs ← expect '-' cs
  let (day, cs) ← fixedDigits 2 cs
  if 1 ≤ month ∧ month ≤ 12 ∧ 1 ≤ day ∧ day ≤ daysIn year month then some cs else none

def seconds? (cs : List Char) : Option (List Char) :=
  match cs with
  | ':' :: cs => do
      let (second, cs) ← fixedDigits 2 cs
      if 60 < second then none
      else match cs with
        | '.' :: rest =>
            let places := rest.takeWhile Char.isDigit
            if places.isEmpty then none else some (rest.drop places.length)
        | cs => some cs
  | cs => some cs

def timeOfDay? (cs : List Char) : Option (List Char) := do
  let (hour, cs) ← fixedDigits 2 cs
  let cs ← expect ':' cs
  let (minute, cs) ← fixedDigits 2 cs
  if 23 < hour ∨ 59 < minute then none else seconds? cs

def isZone : List Char → Bool
  | [] => true
  | ['Z'] | ['z'] => true
  | c :: cs =>
      (c = '+' || c = '-') && ((do
        let (hour, cs) ← fixedDigits 2 cs
        let cs ← expect ':' cs
        let (minute, cs) ← fixedDigits 2 cs
        some (cs.isEmpty && hour ≤ 23 && minute ≤ 59)).getD false)

def isMoment (cs : List Char) : Bool :=
  match date? cs with
  | some [] => true
  | some (c :: rest) =>
      (c = 'T' || c = 't' || c = ' ') && ((timeOfDay? rest).any isZone)
  | none => (timeOfDay? cs).any List.isEmpty

def scalar? (cs : List Char) : Option Value :=
  if cs = "true".toList then some (.boolean true)
  else if cs = "false".toList then some (.boolean false)
  else
    let (negative, digits) := splitSign cs
    if digits = "inf".toList then some (.float (if negative then -1.0 / 0.0 else 1.0 / 0.0))
    else if digits = "nan".toList then some (.float (0.0 / 0.0))
    else match cs with
      | '0' :: 'x' :: rest => inBase 16 isHexDigit rest
      | '0' :: 'o' :: rest => inBase 8 (fun c => '0' ≤ c && c ≤ '7') rest
      | '0' :: 'b' :: rest => inBase 2 (fun c => c = '0' || c = '1') rest
      | _ => match decimalDigits digits with
          | some ds =>
              let n : Int := valueIn 10 ds
              some (.integer (if negative then -n else n))
          | none => if isMoment cs then some .moment else float? cs

end JavaAudit.Toml
