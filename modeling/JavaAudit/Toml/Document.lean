import JavaAudit.Toml.Value

/-! How the statements of a document build its tables. A name is given once, a table gets one header,
and a table that a dotted key began is not continued under a header. -/
namespace JavaAudit.Toml

/-- Gives a value to a dotted key. Nothing comes of it if the name is taken. -/
def assign : List Key → Node → Fields → Option Fields
  | [], _, _ => none
  | [key], node, fields =>
      if (fields.get? key.name).isSome then none else some (fields ++ [(key.name, node)])
  | key :: keys, node, fields =>
      match fields.get? key.name with
      | none => do
          let inner ← assign keys node []
          some (fields ++ [(key.name, .table key.span .dotted inner)])
      | some (.table span origin inner) =>
          if origin = .dotted ∨ (origin = .implied ∧ 2 ≤ keys.length) then do
            let inner ← assign keys node inner
            some (fields.set key.name (.table span origin inner))
          else none
      | some _ => none

def changeLast (change : Fields → Option Fields) (items : List Fields) : Option (List Fields) := do
  let last ← items.getLast?
  let last ← change last
  some (items.dropLast ++ [last])

def beginTable (span : Span) (double : Bool) : List Key → Fields → Option Fields
  | [], _ => none
  | [key], fields =>
      match fields.get? key.name, double with
      | none, false => some (fields ++ [(key.name, .table span .header [])])
      | none, true => some (fields ++ [(key.name, .tables span [[]])])
      | some (.table _ .implied inner), false => some (fields.set key.name (.table span .header inner))
      | some (.tables first items), true => some (fields.set key.name (.tables first (items ++ [[]])))
      | _, _ => none
  | key :: keys, fields =>
      match fields.get? key.name with
      | none => do
          let inner ← beginTable span double keys []
          some (fields ++ [(key.name, .table key.span .implied inner)])
      | some (.table s origin inner) => do
          let inner ← beginTable span double keys inner
          some (fields.set key.name (.table s origin inner))
      | some (.tables s items) => do
          let items ← changeLast (beginTable span double keys) items
          some (fields.set key.name (.tables s items))
      | some (.value ..) => none

def within (change : Fields → Option Fields) : List Key → Fields → Option Fields
  | [], fields => change fields
  | key :: keys, fields =>
      match fields.get? key.name with
      | some (.table s origin inner) => do
          let inner ← within change keys inner
          some (fields.set key.name (.table s origin inner))
      | some (.tables s items) => do
          let items ← changeLast (within change keys) items
          some (fields.set key.name (.tables s items))
      | _ => none

inductive Statement where
  | assigns (keys : List Key) (node : Node)
  | begins (span : Span) (double : Bool) (keys : List Key)
  deriving Inhabited

structure Draft where
  fields : Fields := []
  header : List Key := []
  deriving Inhabited

def Draft.add (d : Draft) : Statement → Option Draft
  | .assigns keys node => do
      let fields ← within (assign keys node) d.header d.fields
      some { d with fields }
  | .begins span double keys => do
      let fields ← beginTable span double keys d.fields
      some ⟨fields, keys⟩

end JavaAudit.Toml
