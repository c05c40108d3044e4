/-! Patterns for paths. `?` stands for one character, `*` for any text, `[...]` and `[!...]` for one
character of a class or outside of it, and `**` as a whole path component for any folders. -/
namespace JavaAudit

namespace Glob

structure Range where
  first : Char
  last : Char
  deriving DecidableEq, Repr, Inhabited

inductive Piece where
  | only (c : Char)
  | anyChar
  | within (ranges : List Range)
  | except (ranges : List Range)
  | anything
  | folders
  deriving DecidableEq, Repr, Inhabited

inductive Mistake where
  | tooManyStars
  | partOfComponent
  | openClass
  deriving DecidableEq, Repr, Inhabited

def Mistake.message : Mistake → String
  | tooManyStars => "wildcards are either regular `*` or recursive `**`"
  | partOfComponent => "recursive wildcards must form a single path component"
  | openClass => "invalid range pattern"

structure PatternFault where
  position : Nat
  mistake : Mistake
  deriving DecidableEq, Repr, Inhabited

def PatternFault.message (f : PatternFault) : String :=
  "Pattern syntax error near position " ++ toString f.position ++ ": " ++ f.mistake.message

def ranges : List Char → List Range
  | first :: '-' :: last :: rest => ⟨first, last⟩ :: ranges rest
  | c :: rest => ⟨c, c⟩ :: ranges rest
  | [] => []

/-- The inside of a class and what follows its closing bracket. The first character is inside even
if it is a bracket. -/
def classBody : List Char → Option (List Char × List Char)
  | [] => none
  | c :: rest =>
      if rest.contains ']' then
        some (c :: rest.takeWhile (· ≠ ']'), (rest.dropWhile (· ≠ ']')).drop 1)
      else none

def readPieces : Nat → Nat → Option Char → List Char → Except PatternFault (List Piece)
  | 0, _, _, _ => .ok []
  | _, _, _, [] => .ok []
  | fuel + 1, position, previous, c :: rest =>
      if c = '?' then do
        let more ← readPieces fuel (position + 1) c rest
        pure (.anyChar :: more)
      else if c = '*' then
        let stars := 1 + (rest.takeWhile (· = '*')).length
        let behind := rest.dropWhile (· = '*')
        let here := position + stars
        if stars = 1 then do
          let more ← readPieces fuel here c behind
          pure (.anything :: more)
        else if 2 < stars then .error ⟨position + 2, .tooManyStars⟩
        else if previous.any (· ≠ '/') then .error ⟨position - 1, .partOfComponent⟩
        else match behind with
          | [] => .ok [.folders]
          | '/' :: behind => do
              let more ← readPieces fuel (here + 1) '/' behind
              pure (.folders :: more)
          | _ => .error ⟨here, .partOfComponent⟩
      else if c = '[' then
        let (outside, inside) := match rest with
          | '!' :: inside => (true, inside)
          | inside => (false, inside)
        match classBody inside with
        | none => .error ⟨position, .openClass⟩
        | some (body, behind) => do
            let length := body.length + (if outside then 3 else 2)
            let more ← readPieces fuel (position + length) ']' behind
            pure ((if outside then .except (ranges body) else .within (ranges body)) :: more)
      else do
        let more ← readPieces fuel (position + 1) c rest
        pure (.only c :: more)

def inRanges (c : Char) (rs : List Range) : Bool := rs.any fun r => r.first ≤ c && c ≤ r.last

def Piece.accepts (c : Char) : Piece → Bool
  | only d => c = d
  | anyChar => true
  | within rs => inRanges c rs
  | except rs => !inRanges c rs
  | anything | folders => false

def behindSeparator : List Char → Option (List Char)
  | [] => none
  | c :: rest => if c = '/' then some rest else behindSeparator rest

theorem behindSeparatorLength {text rest : List Char} (h : behindSeparator text = some rest) :
    rest.length < text.length := by
  induction text with
  | nil => simp [behindSeparator] at h
  | cons c text ih =>
    unfold behindSeparator at h
    split at h
    · simp_all
    · exact Nat.lt_succ_of_lt (ih h)

/-- `tooShort` says that the text ended where one more character was needed; then no longer opening
part for an earlier wildcard can help. -/
inductive Verdict where
  | matched | mismatch | tooShort
  deriving DecidableEq, Repr, Inhabited

def verdict : List Piece → List Char → Verdict
  | [], [] => .matched
  | [], _ :: _ => .mismatch
  | .anything :: rest, text =>
      match verdict rest text with
      | .mismatch => match text with
          | [] => .mismatch
          | _ :: text => verdict (.anything :: rest) text
      | v => v
  | .folders :: rest, text =>
      match verdict rest text with
      | .mismatch => match _h : behindSeparator text with
          | none => verdict rest []
          | some text => verdict (.folders :: rest) text
      | v => v
  | _ :: _, [] => .tooShort
  | p :: rest, c :: text => if p.accepts c then verdict rest text else .mismatch
termination_by pieces text => (pieces.length, text.length)
decreasing_by
  all_goals simp_wf
  all_goals first
    | exact Prod.Lex.left _ _ (Nat.lt_succ_self _)
    | exact Prod.Lex.right _ (Nat.lt_succ_self _)
    | exact Prod.Lex.right _ (behindSeparatorLength _h)

end Glob

structure Glob where
  pieces : List Glob.Piece
  deriving DecidableEq, Repr, Inhabited

namespace Glob

def read (text : String) : Except PatternFault Glob := do
  let cs := text.toList
  let ps ← Glob.readPieces cs.length 0 none cs
  pure ⟨ps⟩

def accepts (g : Glob) (text : String) : Bool := verdict g.pieces text.toList = .matched

end Glob

end JavaAudit
