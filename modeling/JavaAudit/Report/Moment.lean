/-! The time at which a run was made, in universal time, and how long it took. -/
namespace JavaAudit

structure Moment where
  year : Int
  month : Nat
  day : Nat
  hour : Nat
  minute : Nat
  second : Nat
  nanos : Nat
  deriving DecidableEq, Repr, Inhabited

structure Duration where
  seconds : Nat
  nanos : Nat
  deriving DecidableEq, Repr, Inhabited

namespace Duration

def nanosPerSecond : Nat := 1000000000

def millis (d : Duration) : Nat := d.nanos / 1000000

def ofParts (seconds nanos : Nat) : Duration :=
  ⟨seconds + nanos / nanosPerSecond, nanos % nanosPerSecond⟩

end Duration

def padded (width n : Nat) : List Char :=
  let digits := Nat.toDigits 10 n
  List.replicate (width - digits.length) '0' ++ digits

def Duration.write (d : Duration) : String :=
  if d.seconds = 0 then toString d.millis ++ "ms"
  else if d.seconds < 60 then
    toString d.seconds ++ "." ++ String.ofList (padded 3 d.millis) ++ "s"
  else toString (d.seconds / 60) ++ "m " ++ toString (d.seconds % 60) ++ "s"

namespace Moment

def epoch : Moment := ⟨1970, 1, 1, 0, 0, 0, 0⟩

/-- None, three, six or nine places: the fewest that show all. -/
def places (nanos : Nat) : List Char :=
  if nanos = 0 then []
  else if nanos % 1000000 = 0 then '.' :: padded 3 (nanos / 1000000)
  else if nanos % 1000 = 0 then '.' :: padded 6 (nanos / 1000)
  else '.' :: padded 9 nanos

def writeYear (year : Int) : List Char :=
  if year < 0 then '-' :: padded 4 year.natAbs
  else if 9999 < year then '+' :: padded 4 year.natAbs
  else padded 4 year.natAbs

def write (m : Moment) : String :=
  String.ofList (writeYear m.year ++ '-' :: padded 2 m.month ++ '-' :: padded 2 m.day ++
    'T' :: padded 2 m.hour ++ ':' :: padded 2 m.minute ++ ':' :: padded 2 m.second ++
    places m.nanos ++ ['Z'])

def isLeap (year : Int) : Bool := year % 4 = 0 && (year % 100 ≠ 0 || year % 400 = 0)

def daysIn (year : Int) (month : Nat) : Nat :=
  if month = 2 then (if isLeap year then 29 else 28)
  else if month = 4 ∨ month = 6 ∨ month = 9 ∨ month = 11 then 30 else 31

def isValid (m : Moment) : Bool :=
  1 ≤ m.month && m.month ≤ 12 && 1 ≤ m.day && m.day ≤ daysIn m.year m.month && m.hour ≤ 23 &&
    m.minute ≤ 59 && m.second ≤ 60 && m.nanos < 1000000000

def nextDay (m : Moment) : Moment :=
  if m.day < daysIn m.year m.month then { m with day := m.day + 1 }
  else if m.month < 12 then { m with month := m.month + 1, day := 1 }
  else { m with year := m.year + 1, month := 1, day := 1 }

def previousDay (m : Moment) : Moment :=
  if 1 < m.day then { m with day := m.day - 1 }
  else if 1 < m.month then { m with month := m.month - 1, day := daysIn m.year (m.month - 1) }
  else { m with year := m.year - 1, month := 12, day := 31 }

def withMinutes (m : Moment) (minutes : Nat) : Moment :=
  { m with hour := minutes / 60, minute := minutes % 60 }

/-- The same moment, given in a place that is so many minutes ahead of universal time, or behind it;
less than a day. -/
def shift (m : Moment) (ahead : Bool) (minutes : Nat) : Moment :=
  let now := m.hour * 60 + m.minute
  if ahead then
    if minutes ≤ now then m.withMinutes (now - minutes)
    else m.previousDay.withMinutes (now + 1440 - minutes)
  else if now + minutes < 1440 then m.withMinutes (now + minutes)
  else m.nextDay.withMinutes (now + minutes - 1440)

def digits? (count : Nat) (cs : List Char) : Option (Nat × List Char) :=
  let digits := cs.take count
  if digits.length = count ∧ digits.all Char.isDigit then
    some (Nat.ofDigitChars 10 digits 0, cs.drop count)
  else none

def mark? (marks : List Char) : List Char → Option (List Char)
  | c :: rest => if c ∈ marks then some rest else none
  | [] => none

def places? : List Char → Option (Nat × List Char)
  | '.' :: rest =>
      let digits := rest.takeWhile Char.isDigit
      if digits.isEmpty then none
      else
        let nine := (digits ++ List.replicate 9 '0').take 9
        some (Nat.ofDigitChars 10 nine 0, rest.drop digits.length)
  | rest => some (0, rest)

def zone? : List Char → Option (Bool × Nat)
  | ['Z'] | ['z'] => some (true, 0)
  | c :: rest => do
      if c ≠ '+' ∧ c ≠ '-' then none
      let (hours, rest) ← digits? 2 rest
      let rest ← mark? [':'] rest
      let (minutes, rest) ← digits? 2 rest
      if rest.isEmpty ∧ hours ≤ 23 ∧ minutes ≤ 59 then some (c = '+', hours * 60 + minutes) else none
  | [] => none

def year? : List Char → Option (Int × List Char)
  | '-' :: rest => signed? rest fun n => -(n : Int)
  | '+' :: rest => signed? rest fun n => (n : Int)
  | cs => (digits? 4 cs).map fun (n, rest) => ((n : Int), rest)
where
  signed? (cs : List Char) (sign : Nat → Int) : Option (Int × List Char) :=
    let digits := cs.takeWhile Char.isDigit
    if digits.length < 4 then none
    else some (sign (Nat.ofDigitChars 10 digits 0), cs.drop digits.length)

def read? (text : String) : Option Moment := do
  let (year, cs) ← year? text.toList
  let cs ← mark? ['-'] cs
  let (month, cs) ← digits? 2 cs
  let cs ← mark? ['-'] cs
  let (day, cs) ← digits? 2 cs
  let cs ← mark? ['T', 't', ' '] cs
  let (hour, cs) ← digits? 2 cs
  let cs ← mark? [':'] cs
  let (minute, cs) ← digits? 2 cs
  let cs ← mark? [':'] cs
  let (second, cs) ← digits? 2 cs
  let (nanos, cs) ← places? cs
  let (ahead, minutes) ← zone? cs
  let m : Moment := ⟨year, month, day, hour, minute, second, nanos⟩
  if m.isValid then some (m.shift ahead minutes) else none

/-- The date so many days after 1 January 1970; the fuel bounds the number of months. -/
def addDays : Nat → Moment → Nat → Moment
  | 0, m, _ => m
  | fuel + 1, m, days =>
      let length := daysIn m.year m.month
      if days < length then { m with day := days + 1 }
      else
        let next := if m.month < 12 then { m with month := m.month + 1 }
          else { m with year := m.year + 1, month := 1 }
        addDays fuel next (days - length)

def ofEpoch (seconds nanos : Nat) : Moment :=
  let days := seconds / 86400
  let rest := seconds % 86400
  { addDays (days + 1) epoch days with
    hour := rest / 3600, minute := rest / 60 % 60, second := rest % 60, nanos }

end Moment

structure Timing where
  date : Moment := .epoch
  duration : Duration := ⟨0, 0⟩
  deriving DecidableEq, Repr, Inhabited

end JavaAudit
