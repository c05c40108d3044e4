import JavaAudit.Text.Letter
import JavaAudit.Text.Pattern
import JavaAudit.Source.Token

/-! The lengths of blanks, comments and tokens at the front of a text. Everything is measured in
characters, so a token is always an opening part of what is left. -/
namespace JavaAudit.Source
open JavaAudit.Text

def isGap (c : Char) : Bool := c == ' ' || (9 ≤ c.toNat && c.toNat ≤ 13)

def blockCommentEnd : List Char → Option Nat
  | '*' :: '/' :: _ => some 2
  | _ :: rest => (blockCommentEnd rest).map (· + 1)
  | [] => none

def commentLength : List Char → Nat
  | '/' :: '/' :: rest => 2 + (rest.takeWhile (· != '\n')).length
  | '/' :: '*' :: rest => ((blockCommentEnd rest).map (· + 2)).getD 0
  | _ => 0

def gapLength : Nat → List Char → Nat
  | 0, _ => 0
  | bound + 1, cs =>
      let blanks := (cs.takeWhile isGap).length
      let n := blanks + commentLength (cs.drop blanks)
      if n = 0 then 0 else n + gapLength bound (cs.drop n)

namespace Literal
open Pattern

def digit : Pattern := one Char.isDigit

def hexDigit : Pattern :=
  one fun c => c.isDigit || ('a' ≤ c && c ≤ 'f') || ('A' ≤ c && c ≤ 'F')

def zeroTo (last : Char) : Pattern := one fun c => '0' ≤ c && c ≤ last

def groups (d : Pattern) : Pattern := separated (plus d) (char '_')

def decimal : Pattern :=
  any (char '0') (both (one fun c => '1' ≤ c && c ≤ '9')
    (opt (both (opt (char '_')) (separated (plus digit) (plus (char '_'))))))

def long : Pattern := opt (oneOf ['l', 'L'])

def exponent (marks : List Char) (digits : Pattern) : Pattern :=
  all [oneOf marks, opt (oneOf ['-', '+']), digits]

def floatSuffix : Pattern := oneOf ['f', 'F', 'd', 'D']

def hexMark : Pattern := both (char '0') (oneOf ['x', 'X'])

def number : Pattern :=
  let tenth := exponent ['e', 'E'] (groups digit)
  choice [
    both decimal long,
    all [hexMark, groups hexDigit, long],
    all [char '0', opt (oneOf ['o', 'O']), groups (zeroTo '7'), long],
    all [char '0', oneOf ['b', 'B'], groups (zeroTo '1'), long],
    all [groups digit, char '.', opt (groups digit), opt tenth, opt floatSuffix],
    all [char '.', groups digit, opt tenth, opt floatSuffix],
    all [decimal, tenth, opt floatSuffix],
    all [decimal, opt tenth, floatSuffix],
    all [hexMark,
      any (both (groups hexDigit) (opt (char '.')))
        (all [opt (groups hexDigit), char '.', groups hexDigit]),
      opt (both (exponent ['e', 'E', 'p', 'P'] decimal) (opt floatSuffix))]]

def isHex (c : Char) : Bool := c.isDigit || ('a' ≤ c && c ≤ 'f') || ('A' ≤ c && c ≤ 'F')

/-- Whether a backslash may stand before this character and what follows it in a text of one line. -/
def escapes (c : Char) (rest : List Char) : Bool :=
  if c == 'x' then (rest.take 2).length == 2 && (rest.take 2).all isHex
  else if c == 'u' then
    ((rest.take 4).length == 4 && (rest.take 4).all isHex) ||
      (rest.head? == some '\x7b' && (rest.drop 1).head?.any isHex &&
        ((rest.drop 1).dropWhile isHex).head? == some '\x7d')
  else true

inductive TextEnd where
  | closed (length : Nat)
  | embeds (length : Nat)

def TextEnd.add (n : Nat) : TextEnd → TextEnd
  | closed length => closed (length + n)
  | embeds length => embeds (length + n)

def lineText : List Char → Option TextEnd
  | '"' :: _ => some (.closed 1)
  | '\\' :: c :: rest =>
      if c == '\x7b' then some (.embeds 2)
      else if escapes c rest then (lineText rest).map (TextEnd.add 2)
      else none
  | ['\\'] => none
  | _ :: rest => (lineText rest).map (TextEnd.add 1)
  | [] => none

def blockText : List Char → Option TextEnd
  | '"' :: '"' :: '"' :: _ => some (.closed 3)
  | '\\' :: c :: rest =>
      if c == '\x7b' then some (.embeds 2) else (blockText rest).map (TextEnd.add 2)
  | ['\\'] => none
  | _ :: rest => (blockText rest).map (TextEnd.add 1)
  | [] => none

def characterEnd : List Char → Option Nat
  | '\'' :: _ => some 1
  | '\\' :: _ :: rest => (characterEnd rest).map (· + 2)
  | ['\\'] => none
  | c :: rest => if c == '\n' then none else (characterEnd rest).map (· + 1)
  | [] => none

end Literal

/-- The signs of more than one character. A closing angle bracket is always a sign of its own. -/
def longSigns : List (List Char) :=
  ["@interface", "<<=", "...", "->", "::", "++", "--", "&&", "||", "==", "!=", "<=", "<<", "+=",
    "-=", "*=", "/=", "&=", "|=", "^=", "%="].map String.toList

def plainSigns : List Char :=
  ['(', ')', '\x7b', '\x7d', '[', ']', ';', ',', '.', '@', '=', '<', '>', '!', '~', '?', ':', '+',
    '-', '*', '/', '&', '|', '^', '%']

structure OpenText where
  braces : Nat
  block : Bool
  deriving DecidableEq, Repr

structure Lexeme where
  kind : TokenKind
  length : Nat
  texts : List OpenText

def textLexeme (texts : List OpenText) (block : Bool) (before : Nat) (closes opens : TokenKind)
    (rest : List Char) : Option Lexeme :=
  match if block then Literal.blockText rest else Literal.lineText rest with
  | some (.closed n) => some ⟨closes, before + n, texts⟩
  | some (.embeds n) => some ⟨opens, before + n, ⟨0, block⟩ :: texts⟩
  | none => none

def signLexeme (texts : List OpenText) (cs : List Char) : Lexeme :=
  match longSigns.find? (·.isPrefixOf cs) with
  | some sign => ⟨.sign, sign.length, texts⟩
  | none =>
      if cs.head?.any plainSigns.contains then ⟨.sign, 1, texts⟩ else ⟨.stray, 1, texts⟩

def lexeme (texts : List OpenText) (cs : List Char) : Lexeme :=
  match cs, texts with
  | '"' :: '"' :: '"' :: rest, _ =>
      (textLexeme texts true 3 .text .textOpen rest).getD ⟨.stray, 1, texts⟩
  | '"' :: rest, _ =>
      (textLexeme texts false 1 .text .textOpen rest).getD ⟨.stray, 1, texts⟩
  | '\'' :: rest, _ =>
      match Literal.characterEnd rest with
      | some n => if 1 < n then ⟨.character, n + 1, texts⟩ else ⟨.stray, 1, texts⟩
      | none => ⟨.stray, 1, texts⟩
  | '\x7b' :: _, top :: below => ⟨.sign, 1, { top with braces := top.braces + 1 } :: below⟩
  | '\x7d' :: rest, ⟨0, block⟩ :: below =>
      (textLexeme below block 1 .textClose .textMiddle rest).getD ⟨.stray, 1, texts⟩
  | '\x7d' :: _, ⟨n + 1, block⟩ :: below => ⟨.sign, 1, ⟨n, block⟩ :: below⟩
  | c :: rest, _ =>
      if opensName c then ⟨.word, 1 + (rest.takeWhile continuesName).length, texts⟩
      else if c.isDigit || (c == '.' && rest.head?.any Char.isDigit) then
        match Literal.number.longest cs with
        | some n => ⟨.number, max n 1, texts⟩
        | none => signLexeme texts cs
      else signLexeme texts cs
  | [], _ => ⟨.stray, 1, texts⟩

def tokensFrom : Nat → List OpenText → Place → List Char → List Token
  | 0, _, _, _ => []
  | bound + 1, texts, place, cs =>
      let gap := cs.take (gapLength cs.length cs)
      let rest := cs.drop gap.length
      if rest.isEmpty then [] else
        let found := lexeme texts rest
        let taken := rest.take found.length
        let start := place.after gap
        let stop := start.after taken
        { kind := found.kind, lead := String.ofList gap, text := String.ofList taken, start, stop }
          :: tokensFrom bound found.texts stop (rest.drop found.length)

def byteOrderMark : Char := Char.ofNat 0xfeff

def tokens (source : String) : List Token :=
  let cs := source.toList
  if cs.head? = some byteOrderMark then
    match tokensFrom cs.length [] (Place.step {} byteOrderMark) (cs.drop 1) with
    | first :: others => { first with lead := String.singleton byteOrderMark ++ first.lead } :: others
    | [] => []
  else tokensFrom (cs.length + 1) [] {} cs

end JavaAudit.Source
