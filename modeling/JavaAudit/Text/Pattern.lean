/-! Regular patterns over characters, read by derivatives. `longest` gives the length of the longest
opening part of a text that lies in the pattern. -/
namespace JavaAudit.Text

inductive Pattern where
  | never
  | done
  | one (accepts : Char → Bool)
  | both (first next : Pattern)
  | any (first other : Pattern)
  | star (item : Pattern)

namespace Pattern

def nullable : Pattern → Bool
  | never => false
  | done => true
  | one _ => false
  | both p q => p.nullable && q.nullable
  | any p q => p.nullable || q.nullable
  | star _ => true

def isNever : Pattern → Bool
  | never => true
  | _ => false

def mkBoth (p q : Pattern) : Pattern :=
  match p, q with
  | never, _ => never
  | _, never => never
  | done, q => q
  | p, q => both p q

def mkAny (p q : Pattern) : Pattern :=
  match p, q with
  | never, q => q
  | p, never => p
  | p, q => any p q

def derive (c : Char) : Pattern → Pattern
  | never => never
  | done => never
  | one accepts => if accepts c then done else never
  | both p q =>
      if p.nullable then mkAny (mkBoth (p.derive c) q) (q.derive c) else mkBoth (p.derive c) q
  | any p q => mkAny (p.derive c) (q.derive c)
  | star p => mkBoth (p.derive c) (star p)

/-- `length` characters are behind, and `best` is the longest length that was accepted so far. -/
def longestFrom (p : Pattern) (length : Nat) (best : Option Nat) : List Char → Option Nat
  | [] => if p.nullable then some length else best
  | c :: rest =>
      let best := if p.nullable then some length else best
      if p.isNever then best else longestFrom (p.derive c) (length + 1) best rest

def longest (p : Pattern) (text : List Char) : Option Nat :=
  longestFrom p 0 none text

def char (c : Char) : Pattern := one (· == c)

def oneOf (cs : List Char) : Pattern := one cs.contains

def opt (p : Pattern) : Pattern := any p done

def plus (p : Pattern) : Pattern := both p (star p)

def all (ps : List Pattern) : Pattern := ps.foldr both done

def choice (ps : List Pattern) : Pattern := ps.foldr any never

def separated (item separator : Pattern) : Pattern :=
  both item (star (both separator item))

end Pattern

end JavaAudit.Text
