/-! Text as bytes, and bytes as text with the place of the first byte that fits no character. -/
namespace JavaAudit.Text

abbrev Bytes := List UInt8

def encode (s : String) : Bytes := s.toUTF8.toList

structure Utf8Fault where
  index : Nat
  length : Option Nat
  deriving DecidableEq, Repr, Inhabited

def Utf8Fault.message (f : Utf8Fault) : String :=
  match f.length with
  | some n => "invalid utf-8 sequence of " ++ toString n ++ " bytes from index " ++ toString f.index
  | none => "incomplete utf-8 byte sequence from index " ++ toString f.index

def isContinuation (b : UInt8) : Bool := 0x80 ≤ b && b ≤ 0xBF

def isSecond (first second : UInt8) : Bool :=
  let low : UInt8 := if first = 0xE0 then 0xA0 else if first = 0xF0 then 0x90 else 0x80
  let high : UInt8 := if first = 0xED then 0x9F else if first = 0xF4 then 0x8F else 0xBF
  low ≤ second && second ≤ high

def width? (first : UInt8) : Option Nat :=
  if first < 0x80 then some 1
  else if 0xC2 ≤ first ∧ first ≤ 0xDF then some 2
  else if 0xE0 ≤ first ∧ first ≤ 0xEF then some 3
  else if 0xF0 ≤ first ∧ first ≤ 0xF4 then some 4
  else none

def fitting (first : UInt8) (width : Nat) (rest : Bytes) : Nat :=
  match rest.take (width - 1) with
  | [] => 0
  | second :: more =>
      if isSecond first second then 1 + (more.takeWhile isContinuation).length else 0

def point (first : UInt8) (rest : Bytes) : Nat :=
  let lead := match rest.length with
    | 0 => first.toNat
    | 1 => first.toNat - 0xC0
    | 2 => first.toNat - 0xE0
    | _ => first.toNat - 0xF0
  rest.foldl (fun n b => n * 64 + (b.toNat - 0x80)) lead

def decodeFrom : Nat → Nat → Bytes → Except Utf8Fault (List Char)
  | 0, _, _ => .ok []
  | _, _, [] => .ok []
  | fuel + 1, index, first :: rest =>
      match width? first with
      | none => .error ⟨index, some 1⟩
      | some width =>
          let good := fitting first width rest
          if good + 1 = width then do
            let more ← decodeFrom fuel (index + width) (rest.drop good)
            pure (Char.ofNat (point first (rest.take good)) :: more)
          else if rest.length ≤ good then .error ⟨index, none⟩
          else .error ⟨index, some (good + 1)⟩

def decode (bytes : Bytes) : Except Utf8Fault String :=
  (decodeFrom bytes.length 0 bytes).map String.ofList

end JavaAudit.Text
