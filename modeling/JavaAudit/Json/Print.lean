import JavaAudit.Decimal.Layout
import JavaAudit.Json.Basic

/-! The written form of JSON values, on one line or indented by two blanks. -/
namespace JavaAudit.Json

def hexDigit (n : Nat) : Char := Char.ofNat (if n < 10 then 48 + n else 87 + n)

def escapeChar (c : Char) : List Char :=
  if c = '"' then ['\\', '"']
  else if c = '\\' then ['\\', '\\']
  else if c = '\n' then ['\\', 'n']
  else if c = '\r' then ['\\', 'r']
  else if c = '\t' then ['\\', 't']
  else if c.toNat = 8 then ['\\', 'b']
  else if c.toNat = 12 then ['\\', 'f']
  else if c.toNat < 32 then ['\\', 'u', '0', '0', hexDigit (c.toNat / 16), hexDigit (c.toNat % 16)]
  else [c]

def quoted (s : String) : List Char := '"' :: (s.toList.flatMap escapeChar ++ ['"'])

def integerChars (n : Int) : List Char :=
  (if n < 0 then ['-'] else []) ++ Decimal.digitChars n.natAbs

def floatChars (x : Float) : List Char :=
  match Decimal.Binary.ofFloat? x with
  | some b => b.write.toList
  | none => "null".toList

structure Layout where
  gap : Nat → List Char
  colon : List Char

def Layout.compact : Layout := ⟨fun _ => [], [':']⟩

def Layout.indented : Layout := ⟨fun depth => '\n' :: List.replicate (2 * depth) ' ', [':', ' ']⟩

mutual

def chars (l : Layout) (depth : Nat) : Json → List Char
  | .null => "null".toList
  | .boolean b => if b then "true".toList else "false".toList
  | .integer n => integerChars n
  | .float x => floatChars x
  | .text s => quoted s
  | .list [] => ['[', ']']
  | .list (j :: js) =>
      '[' :: (l.gap (depth + 1) ++ chars l (depth + 1) j ++ itemChars l (depth + 1) js) ++
        l.gap depth ++ [']']
  | .object [] => ['\x7b', '\x7d']
  | .object ((name, j) :: rest) =>
      '\x7b' :: (l.gap (depth + 1) ++ quoted name ++ l.colon ++ chars l (depth + 1) j ++
        fieldChars l (depth + 1) rest) ++ l.gap depth ++ ['\x7d']

def itemChars (l : Layout) (depth : Nat) : List Json → List Char
  | [] => []
  | j :: js => ',' :: (l.gap depth ++ chars l depth j) ++ itemChars l depth js

def fieldChars (l : Layout) (depth : Nat) : List (String × Json) → List Char
  | [] => []
  | (name, j) :: rest =>
      ',' :: (l.gap depth ++ quoted name ++ l.colon ++ chars l depth j) ++ fieldChars l depth rest

end

def compact (j : Json) : String := String.ofList (chars .compact 0 j)

def pretty (j : Json) : String := String.ofList (chars .indented 0 j)

end JavaAudit.Json
