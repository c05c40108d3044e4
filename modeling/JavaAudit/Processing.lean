import JavaAudit.Error

/-! Work on a list of items, one after the other, with a report on each. The first failure ends it. -/
namespace JavaAudit

structure Progress where
  current : Nat
  total : Nat
  message : String
  deriving DecidableEq, Repr, Inhabited

structure Token where
  cancelled : Bool := false
  deriving DecidableEq, Repr, Inhabited

def Token.check (t : Token) : Except AuditError Unit :=
  if t.cancelled then .error .interrupted else .ok ()

namespace Processing

variable {α β σ : Type}

structure Outcome (σ β : Type) where
  result : Except AuditError (List β)
  reports : List Progress
  state : σ

def report (current total : Nat) : Progress :=
  ⟨current, total, "Processing item " ++ toString current ++ "/" ++ toString total⟩

def runFrom (work : σ → α → Except AuditError β × σ) (total : Nat) :
    Nat → σ → List α → Outcome σ β
  | _, state, [] => ⟨.ok [], [], state⟩
  | done, state, item :: items =>
      match work state item with
      | (.error e, state) => ⟨.error e, [report (done + 1) total], state⟩
      | (.ok result, state) =>
          let rest := runFrom work total (done + 1) state items
          ⟨rest.result.map (result :: ·), report (done + 1) total :: rest.reports, rest.state⟩

def run (work : σ → α → Except AuditError β × σ) (state : σ) (items : List α) : Outcome σ β :=
  runFrom work items.length 0 state items

def workers (asked : Nat) : Nat := max asked 1

end Processing

end JavaAudit
