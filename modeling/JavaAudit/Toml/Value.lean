/-! Values of a TOML document and where they stand in its text. -/
namespace JavaAudit.Toml

structure Span where
  -- offsets in bytes, the end not included
  start : Nat
  stop : Nat
  deriving DecidableEq, Repr, Inhabited

inductive Value where
  | text (value : String)
  | integer (value : Int)
  | float (value : Float)
  | boolean (value : Bool)
  | moment
  | list (items : List (Span × Value))
  | table (fields : List (String × Span × Value))
  deriving Inhabited

structure Key where
  name : String
  span : Span
  deriving DecidableEq, Repr, Inhabited

inductive Origin where
  | header
  -- in front of the last name of a header, or of a dotted key
  | implied
  | dotted
  deriving DecidableEq, Repr, Inhabited

inductive Node where
  | value (span : Span) (value : Value)
  | table (span : Span) (origin : Origin) (fields : List (String × Node))
  -- under a header in double brackets; the last one grows
  | tables (span : Span) (items : List (List (String × Node)))
  deriving Inhabited

abbrev Fields := List (String × Node)

def Fields.get? (fields : Fields) (name : String) : Option Node :=
  (fields.find? (·.1 == name)).map Prod.snd

def Fields.set (fields : Fields) (name : String) (node : Node) : Fields :=
  if (fields.get? name).isSome then
    fields.map fun (other, old) => if other = name then (other, node) else (other, old)
  else fields ++ [(name, node)]

mutual

def Node.close : Node → Span × Value
  | .value span v => (span, v)
  | .table span _ fields => (span, .table (closeFields fields))
  | .tables span items => (span, .list (closeItems span items))

def closeFields : List (String × Node) → List (String × Span × Value)
  | [] => []
  | (name, node) :: rest => (name, node.close) :: closeFields rest

def closeItems (span : Span) : List (List (String × Node)) → List (Span × Value)
  | [] => []
  | fields :: rest => (span, .table (closeFields fields)) :: closeItems span rest

end

end JavaAudit.Toml
