/-! Dotted names of types and packages. -/
namespace JavaAudit

def splitChars (separator : Char) : List Char → List (List Char)
  | [] => [[]]
  | c :: cs =>
      if c = separator then [] :: splitChars separator cs
      else match splitChars separator cs with
        | [] => [[c]]
        | piece :: pieces => (c :: piece) :: pieces

theorem splitCharsNonempty (separator : Char) (cs : List Char) : splitChars separator cs ≠ [] := by
  cases cs with
  | nil => simp [splitChars]
  | cons c cs =>
    unfold splitChars
    split
    · simp
    · split <;> simp

def split (separator : Char) (text : String) : List String :=
  (splitChars separator text.toList).map String.ofList

def segments (name : String) : List String := split '.' name

def simpleName (name : String) : String := ((segments name).getLast?).getD name

def packageDepth (package : String) : Nat := (segments package).length

def defaultPackage : String := "(default)"

def qualify (package name : String) : String :=
  if package = defaultPackage ∨ package = "" then name else package ++ "." ++ name

end JavaAudit
