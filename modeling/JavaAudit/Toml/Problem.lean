import JavaAudit.Decimal.Layout
import JavaAudit.Text.Quoted
import JavaAudit.Toml.Value

/-! What is wrong with a TOML document, shown at the line where it is wrong. -/
namespace JavaAudit.Toml

inductive Cause where
  | malformed
  | wrongType (found expected : String)
  | wrongValue (found expected : String)
  | unknownVariant (name : String) (known : List String)
  | notText (found : String)
  deriving DecidableEq, Repr, Inhabited

def backquoted (s : String) : String := "`" ++ s ++ "`"

def Cause.message : Cause → String
  | malformed => "invalid syntax"
  | wrongType found expected => "invalid type: " ++ found ++ ", expected " ++ expected
  | wrongValue found expected => "invalid value: " ++ found ++ ", expected " ++ expected
  | unknownVariant name known =>
      "unknown variant " ++ backquoted name ++ ", expected one of " ++
        ", ".intercalate (known.map backquoted)
  | notText found => "invalid type: " ++ found ++ ", expected string or table"

structure Problem where
  text : String
  span : Span
  cause : Cause
  deriving DecidableEq, Repr, Inhabited

structure Spot where
  row : Nat
  column : Nat
  line : String
  deriving DecidableEq, Repr, Inhabited

def spotFrom : Nat → Nat → List Char → List Char → Spot
  | row, _, seen, [] => ⟨row, seen.length, String.ofList seen.reverse⟩
  | row, offset, seen, c :: rest =>
      if offset = 0 then ⟨row, seen.length, String.ofList (seen.reverse ++ (c :: rest).takeWhile (· ≠ '\n'))⟩
      else if c = '\n' then spotFrom (row + 1) (offset - 1) [] rest
      else spotFrom row (offset - c.utf8Size) (c :: seen) rest

def spot (text : String) (offset : Nat) : Spot := spotFrom 0 offset [] text.toList

def spaces (n : Nat) : String := String.ofList (List.replicate n ' ')

def Problem.message (p : Problem) : String :=
  let place := spot p.text p.span.start
  let row := toString (place.row + 1)
  let margin := spaces (row.length + 1) ++ "|"
  let marks := max 1 (min (p.span.stop - p.span.start) place.line.utf8ByteSize)
  "TOML parse error at line " ++ row ++ ", column " ++ toString (place.column + 1) ++ "\n" ++
    margin ++ "\n" ++ row ++ " | " ++ place.line ++ "\n" ++ margin ++ spaces (place.column + 1) ++
    String.ofList (List.replicate marks '^') ++ "\n" ++ p.cause.message ++ "\n"

def Problem.isMismatch (p : Problem) : Bool :=
  match p.cause with
  | .malformed | .notText _ => false
  | .wrongType .. | .wrongValue .. | .unknownVariant .. => true

def integerName (n : Int) : String := "integer " ++ backquoted (toString n)

def floatName (x : Float) : String :=
  let digits := match Decimal.Binary.ofFloat? x with
    | none => if x.isNaN then "NaN" else if x < 0 then "-inf" else "inf"
    | some b => b.writePlain
  "floating point " ++ backquoted digits

def Value.describe : Value → String
  | text s => "string " ++ Text.quote s
  | integer n =>
      if Int64.minValue.toInt ≤ n ∧ n < UInt64.size then integerName n
      else if n < Int.ofNat (Nat.pow 2 127) then integerName n ++ " as i128"
      else integerName n ++ " as u128"
  | float x => floatName x
  | boolean b => "boolean " ++ backquoted (if b then "true" else "false")
  | moment | table _ => "map"
  | list _ => "sequence"

end JavaAudit.Toml
