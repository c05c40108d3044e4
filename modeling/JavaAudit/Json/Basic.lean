/-! JSON values. The fields of an object keep their order. -/
namespace JavaAudit

inductive Json where
  | null
  | boolean (value : Bool)
  | integer (value : Int)
  | float (value : Float)
  | text (value : String)
  | list (items : List Json)
  | object (fields : List (String × Json))
  deriving Inhabited

namespace Json

instance : Coe String Json := ⟨.text⟩

instance : Coe Bool Json := ⟨.boolean⟩

def nat (n : Nat) : Json := .integer n

def ofOption {α : Type} (f : α → Json) : Option α → Json
  | some a => f a
  | none => .null

def texts (names : List String) : Json := .list (names.map .text)

def field? (name : String) : Json → Option Json
  | .object fields => (fields.find? (·.1 == name)).map Prod.snd
  | _ => none

def text? : Json → Option String
  | .text s => some s
  | _ => none

def boolean? : Json → Option Bool
  | .boolean b => some b
  | _ => none

def nat? : Json → Option Nat
  | .integer n => if 0 ≤ n then some n.toNat else none
  | _ => none

def word? (j : Json) : Option UInt64 := do
  let n ← j.nat?
  if n < UInt64.size then some n.toUInt64 else none

def float? : Json → Option Float
  | .float x => some x
  | .integer n => some (Float.ofInt n)
  | _ => none

def list? : Json → Option (List Json)
  | .list items => some items
  | _ => none

def option? {α : Type} (f : Json → Option α) : Json → Option (Option α)
  | .null => some none
  | j => (f j).map some

end Json

end JavaAudit
