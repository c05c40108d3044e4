import JavaAudit.Json.Basic

/-! Reading JSON values from their written form. -/
namespace JavaAudit.Json

def isGap (c : Char) : Bool := c = ' ' || c = '\n' || c = '\t' || c = '\r'

def skipGap (cs : List Char) : List Char := cs.dropWhile isGap

def hexValue? (c : Char) : Option Nat :=
  if '0' ≤ c ∧ c ≤ '9' then some (c.toNat - 48)
  else if 'a' ≤ c ∧ c ≤ 'f' then some (c.toNat - 87)
  else if 'A' ≤ c ∧ c ≤ 'F' then some (c.toNat - 55)
  else none

def readHex (a b c d : Char) : Option Nat := do
  let a ← hexValue? a
  let b ← hexValue? b
  let c ← hexValue? c
  let d ← hexValue? d
  pure (((a * 16 + b) * 16 + c) * 16 + d)

def simpleEscape? (c : Char) : Option Char :=
  if c = '"' ∨ c = '\\' ∨ c = '/' then some c
  else if c = 'n' then some '\n'
  else if c = 'r' then some '\r'
  else if c = 't' then some '\t'
  else if c = 'b' then some (Char.ofNat 8)
  else if c = 'f' then some (Char.ofNat 12)
  else none

def readPoints : List Char → Option (List Nat × List Char)
  | [] => none
  | c :: rest =>
      if c = '"' then some ([], rest)
      else if c = '\\' then match rest with
        | 'u' :: a :: b :: c :: d :: rest => do
            let point ← readHex a b c d
            let (points, rest) ← readPoints rest
            some (point :: points, rest)
        | e :: rest => do
            let char ← simpleEscape? e
            let (points, rest) ← readPoints rest
            some (char.toNat :: points, rest)
        | [] => none
      else if c.toNat < 32 then none
      else do
        let (points, rest) ← readPoints rest
        some (c.toNat :: points, rest)

/-- The characters of code points, two halves put together; a half alone is no character. -/
def joinHalves : List Nat → Option (List Char)
  | [] => some []
  | high :: rest =>
      if 0xD800 ≤ high ∧ high < 0xDC00 then match rest with
        | [] => none
        | low :: rest =>
            if 0xDC00 ≤ low ∧ low < 0xE000 then do
              let chars ← joinHalves rest
              some (Char.ofNat (0x10000 + (high - 0xD800) * 0x400 + (low - 0xDC00)) :: chars)
            else none
      else if 0xDC00 ≤ high ∧ high < 0xE000 then none
      else do
        let chars ← joinHalves rest
        some (Char.ofNat high :: chars)

def readText (cs : List Char) : Option (String × List Char) := do
  let (points, rest) ← readPoints cs
  let chars ← joinHalves points
  some (String.ofList chars, rest)

def value10 (digits : List Char) : Nat := Nat.ofDigitChars 10 digits 0

def readExponent (cs : List Char) : Option (Int × List Char) :=
  match cs with
  | c :: rest =>
      if c = 'e' ∨ c = 'E' then
        let (negative, rest) := match rest with
          | '-' :: rest => (true, rest)
          | '+' :: rest => (false, rest)
          | rest => (false, rest)
        let digits := rest.takeWhile Char.isDigit
        if digits.isEmpty then none
        else
          let size : Int := value10 digits
          some (if negative then -size else size, rest.dropWhile Char.isDigit)
      else none
  | [] => none

def floatOf (negative : Bool) (mantissa : Nat) (power : Int) : Float :=
  let x := Float.ofScientific mantissa (power < 0) power.natAbs
  if negative then -x else x

def readSign : List Char → Bool × List Char
  | '-' :: rest => (true, rest)
  | cs => (false, cs)

def readPlaces : List Char → List Char × List Char
  | '.' :: rest => (rest.takeWhile Char.isDigit, rest.dropWhile Char.isDigit)
  | cs => ([], cs)

/-- A number without a point and an exponent is an integer. -/
def readNumber (cs : List Char) : Option (Json × List Char) :=
  let (negative, cs) := readSign cs
  let whole := cs.takeWhile Char.isDigit
  if whole.isEmpty then none
  else
    let (places, cs) := readPlaces (cs.dropWhile Char.isDigit)
    let mantissa := value10 (whole ++ places)
    match readExponent cs with
    | some (power, cs) => some (.float (floatOf negative mantissa (power - places.length)), cs)
    | none =>
        if places.isEmpty ∧ ¬ (negative ∧ mantissa = 0) then
          some (.integer (if negative then -(mantissa : Int) else mantissa), cs)
        else some (.float (floatOf negative mantissa (-(places.length : Int))), cs)

mutual

def readValue : Nat → List Char → Option (Json × List Char)
  | 0, _ => none
  | fuel + 1, cs =>
      match skipGap cs with
      | 'n' :: 'u' :: 'l' :: 'l' :: rest => some (.null, rest)
      | 't' :: 'r' :: 'u' :: 'e' :: rest => some (.boolean true, rest)
      | 'f' :: 'a' :: 'l' :: 's' :: 'e' :: rest => some (.boolean false, rest)
      | '"' :: rest => do
          let (value, rest) ← readText rest
          some (.text value, rest)
      | '[' :: rest => match skipGap rest with
          | ']' :: rest => some (.list [], rest)
          | rest => do
              let (items, rest) ← readItems fuel rest
              some (.list items, rest)
      | '\x7b' :: rest => match skipGap rest with
          | '\x7d' :: rest => some (.object [], rest)
          | rest => do
              let (fields, rest) ← readFields fuel rest
              some (.object fields, rest)
      | rest => readNumber rest

def readItems : Nat → List Char → Option (List Json × List Char)
  | 0, _ => none
  | fuel + 1, cs => do
      let (item, rest) ← readValue fuel cs
      match skipGap rest with
      | ']' :: rest => some ([item], rest)
      | ',' :: rest => do
          let (items, rest) ← readItems fuel rest
          some (item :: items, rest)
      | _ => none

def readFields : Nat → List Char → Option (List (String × Json) × List Char)
  | 0, _ => none
  | fuel + 1, cs => match skipGap cs with
      | '"' :: rest => do
          let (name, rest) ← readText rest
          match skipGap rest with
          | ':' :: rest => do
              let (value, rest) ← readValue fuel rest
              match skipGap rest with
              | '\x7d' :: rest => some ([(name, value)], rest)
              | ',' :: rest => do
                  let (fields, rest) ← readFields fuel rest
                  some ((name, value) :: fields, rest)
              | _ => none
          | _ => none
      | _ => none

end

def read? (text : String) : Option Json := do
  let cs := text.toList
  let (value, rest) ← readValue (cs.length + 1) cs
  if (skipGap rest).isEmpty then some value else none

end JavaAudit.Json
