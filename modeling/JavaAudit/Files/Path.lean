import JavaAudit.Naming

/-! Paths as texts. Names are separated by slashes; empty names and single dots add nothing. -/
namespace JavaAudit.Path

def pieces (path : String) : List String := split '/' path

def isAbsolute (path : String) : Bool := path.toList.head? = some '/'

def isIdle (piece : String) : Bool := piece = "" || piece = "."

/-- The path of a name below a directory; an absolute name stands for itself. -/
def join (base name : String) : String :=
  if isAbsolute name then name
  else if base.isEmpty ∨ base.toList.getLast? = some '/' then base ++ name
  else base ++ "/" ++ name

def dropIdle (pieces : List String) : List String :=
  match pieces with
  | [] => []
  | first :: rest => first :: (rest.reverse.dropWhile isIdle).reverse

def parent? (path : String) : Option String :=
  match dropIdle (pieces path) with
  | [] => none
  | [only] => if only = "" then none else some ""
  | kept => match dropIdle kept.dropLast with
      | [""] => some "/"
      | above => some ("/".intercalate above)

/-- What stands behind the last dot of a name; a dot in front of a name does not count. -/
def extension? (name : String) : Option String :=
  let behind := name.toList.reverse.takeWhile (· ≠ '.')
  if name = ".." ∨ name.length ≤ behind.length + 1 then none
  else some (String.ofList behind.reverse)

def precedes (a b : List String) : Bool := !b.lex a

def ofNames (names : List String) : String := "/".intercalate names

end JavaAudit.Path
