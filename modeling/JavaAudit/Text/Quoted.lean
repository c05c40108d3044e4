import JavaAudit.Text.Blank

/-! A text in double quotes, with what cannot be seen written as an escape. -/
namespace JavaAudit.Text

def hexDigits (n : Nat) : List Char := Nat.toDigits 16 n

/-- Controls, blanks other than the space, marks that join the character in front of them, characters
that only steer the layout, and those without a meaning of their own. -/
def isUnseen (c : Char) : Bool :=
  let n := c.toNat
  n < 0x20 || (0x7f ≤ n && n ≤ 0xa0) || n == 0xad || (isBlank c && c ≠ ' ') ||
    (0x300 ≤ n && n ≤ 0x36f) || (0x200b ≤ n && n ≤ 0x200f) || (0x202a ≤ n && n ≤ 0x202e) ||
    (0x2060 ≤ n && n ≤ 0x206f) || (0xe000 ≤ n && n ≤ 0xf8ff) || (0xfe00 ≤ n && n ≤ 0xfe0f) ||
    n == 0xfeff || (0xfff0 ≤ n && n ≤ 0xfffb) || n == 0xfffe || n == 0xffff || 0xe0000 ≤ n

def quoteChar (c : Char) : List Char :=
  if c = '"' then ['\\', '"']
  else if c = '\\' then ['\\', '\\']
  else if c = '\n' then ['\\', 'n']
  else if c = '\r' then ['\\', 'r']
  else if c = '\t' then ['\\', 't']
  else if c.toNat = 0 then ['\\', '0']
  else if isUnseen c then ['\\', 'u', '\x7b'] ++ hexDigits c.toNat ++ ['\x7d']
  else [c]

def quote (s : String) : String := String.ofList ('"' :: s.toList.flatMap quoteChar ++ ['"'])

end JavaAudit.Text
