import JavaAudit.Source.Lexeme
import JavaAudit.Source.Grammar
import JavaAudit.Source.Fault

/-! From a source text to its tree. Where the grammar refuses a token, a closing mark that would let
it go on is supplied and marked as missing; if there is none, the rest of the source is an error. -/
namespace JavaAudit.Source

/-- No chain of rules that leaves the token behind it alone is as long as this. -/
def depthPerToken : Nat := 400

def attempt (ts : List Token) : Reply :=
  Rule.follow grammar (depthPerToken * (ts.length + 4)) (.named .program) ⟨0, ts⟩

def Reply.complete? (r : Reply) : Option Tree :=
  match r.outcome with
  | some ([t], c) => if c.rest.isEmpty then some t else none
  | _ => none

def supplied (text : String) (index : Nat) (ts : List Token) : List Token :=
  let place := ((ts.take index).getLast?.map Token.stop).getD {}
  ts.take index ++
    { kind := .sign, text, start := place, stop := place, missing := true } :: ts.drop index

/-- Whether the token that was refused is taken once this one is supplied before it. -/
def helps (index : Nat) (ts : List Token) : Bool :=
  let r := attempt ts
  r.complete?.isSome || index + 1 < r.reached

def isTaken (index : Nat) (ts : List Token) : Bool :=
  let r := attempt ts
  r.complete?.isSome || index < r.reached

def mend? (index : Nat) (ts : List Token) : Option (List Token) :=
  (([";", ")", "\x7d"].map (supplied · index ts)).find? (helps index)).or
    (([")", "\x7d"].map (supplied · index ts)).find? (isTaken index))

/-- What is left when nothing helps: the marks supplied so far and the tokens that fit nowhere. -/
def wreck (index done : Nat) (ts : List Token) : Tree :=
  let bad := if index < ts.length then ts.drop index else ts.drop done
  .node none .program
    ((ts.take index).filter Token.missing |>.map (Tree.leaf none) |>.append
      [.node none .error (bad.map (Tree.leaf none))])

def treeOf : Nat → List Token → Tree
  | 0, ts => wreck ts.length 0 ts
  | bound + 1, ts =>
      let r := attempt ts
      match r.complete? with
      | some t => t
      | none =>
          match mend? r.reached ts with
          | some mended => treeOf bound mended
          | none => wreck r.reached ((r.outcome.map (·.2.behind)).getD 0) ts

def mendingBound : Nat := 4

inductive Outcome where
  | parsed (tree : Tree)
  | failed (reason : String)

def treeOfSource (source : String) : Tree := treeOf mendingBound (tokens source)

def parse (source : String) : Outcome :=
  let t := treeOfSource source
  match t.refusal? with
  | none => .parsed t
  | some reason => .failed reason

end JavaAudit.Source
