/-! Places in a source text and the tokens that are found there. A token keeps the blanks and
comments that stand before it, so that a row of tokens spells its source. -/
namespace JavaAudit.Source

/-- A place, counted from zero. Rows end at a line feed only; columns count the bytes of UTF-8. -/
structure Place where
  row : Nat := 0
  column : Nat := 0
  deriving DecidableEq, Repr, Inhabited

namespace Place

def step (p : Place) (c : Char) : Place :=
  if c = '\n' then ⟨p.row + 1, 0⟩ else ⟨p.row, p.column + c.utf8Size⟩

def after (p : Place) (text : List Char) : Place := text.foldl step p

def line (p : Place) : Nat := p.row + 1

end Place

inductive TokenKind where
  | word
  | number
  | character
  | text
  | textOpen
  | textMiddle
  | textClose
  | sign
  | stray
  deriving DecidableEq, Repr, Inhabited

structure Token where
  kind : TokenKind
  lead : String := ""
  text : String
  start : Place := {}
  stop : Place := {}
  /-- The token is not in the source: it was supplied where it should have stood. -/
  missing : Bool := false
  deriving DecidableEq, Repr, Inhabited

end JavaAudit.Source
