/-! Counts that a user writes in decimal digits. -/
namespace JavaAudit.Text

inductive CountFault where
  | empty | badDigit | tooLarge
  deriving DecidableEq, Repr, Inhabited

def CountFault.message : CountFault → String
  | empty => "cannot parse integer from empty string"
  | badDigit => "invalid digit found in string"
  | tooLarge => "number too large to fit in target type"

def addDigits (size : Nat) : Nat → List Char → Except CountFault Nat
  | n, [] => .ok n
  | n, c :: rest =>
      if !c.isDigit then .error .badDigit
      else
        let next := n * 10 + (c.toNat - 48)
        if next < size then addDigits size next rest else .error .tooLarge

def readCount (size : Nat) (text : String) : Except CountFault Nat :=
  match text.toList with
  | [] => .error .empty
  | ['+'] => .error .badDigit
  | '+' :: digits => addDigits size 0 digits
  | digits => addDigits size 0 digits

def readBounded? (bound : Nat) (text : String) : Option Nat :=
  match text.toList with
  | '-' :: digits =>
      if digits.isEmpty then none
      else match addDigits 1 0 digits with
        | .ok n => some n
        | .error _ => none
  | _ => match readCount (bound + 1) text with
      | .ok n => some n
      | .error _ => none

def readFlag (text : String) : Except String Bool :=
  if text = "true" then .ok true
  else if text = "false" then .ok false
  else .error "provided string was not `true` or `false`"

end JavaAudit.Text
