import JavaAudit.Source.Tree

/-! Grammar rules and how they are followed. A rule is read along a row of tokens; of two choices
the first that fits is taken, and what it took is never reconsidered. The reply tells, besides the
trees that were built, how far any attempt came. -/
namespace JavaAudit.Source

inductive Terminal where
  | exactly (text : String)
  -- nothing may stand between it and the token before it
  | joined (text : String)
  | name (reserved : List String)
  | ofKind (kind : TokenKind)
  deriving DecidableEq, Repr

def Terminal.accepts : Terminal → Token → Bool
  | exactly text, t => t.text == text
  | joined text, t => t.text == text && t.lead.isEmpty
  | name reserved, t => t.kind == .word && !reserved.contains t.text
  | ofKind kind, t => t.kind == kind

inductive Rule (N : Type) where
  | nothing
  | terminal (t : Terminal)
  | both (first next : Rule N)
  | either (first other : Rule N)
  | many (item : Rule N)
  | node (kind : Kind) (parts : Rule N)
  | playing (role : Role) (part : Rule N)
  | given (test : List Token → Bool) (item : Rule N)
  | choose (look : List Token → String) (cases : List (String × Rule N)) (other : Rule N)
  /-- An item and then any number of links, each of which takes all that stands before it as its
  first part. A link holds the kinds that may stand before it (none listed: all of them), the role
  of what stands before it, its own kind and its other parts. -/
  | chain (item : Rule N) (links : List (List Kind × Option Role × Kind × Rule N))
  | only (kinds : List Kind) (item : Rule N)
  | named (n : N)

structure Cursor where
  behind : Nat
  rest : List Token

structure Reply where
  -- the largest number of tokens that were behind when one was refused
  reached : Nat
  outcome : Option (List Tree × Cursor)

namespace Reply

def refuse (c : Cursor) : Reply := ⟨c.behind, none⟩

def accept (trees : List Tree) (c : Cursor) : Reply := ⟨0, some (trees, c)⟩

def atLeast (n : Nat) (r : Reply) : Reply := ⟨max n r.reached, r.outcome⟩

end Reply

def linkTo (role : Option Role) (before : List Tree) : List Tree :=
  match role with
  | none => before
  | some r => before.map (Tree.withRole r)

def mayFollow (kinds : List Kind) (before : List Tree) : Bool :=
  kinds.isEmpty || match before with
    | [t] => t.kind?.any kinds.contains
    | _ => false

namespace Rule

variable {N : Type}

mutual

def follow (rules : N → Rule N) : Nat → Rule N → Cursor → Reply
  | 0, _, c => .refuse c
  | _ + 1, .nothing, c => .accept [] c
  | _ + 1, .terminal t, c =>
      match c.rest with
      | [] => .refuse c
      | token :: rest =>
          if t.accepts token then .accept [.leaf none token] ⟨c.behind + 1, rest⟩ else .refuse c
  | fuel + 1, .both first next, c =>
      let r := follow rules fuel first c
      match r.outcome with
      | none => r
      | some (trees, c') =>
          let s := (follow rules fuel next c').atLeast r.reached
          match s.outcome with
          | none => s
          | some (more, c'') => ⟨s.reached, some (trees ++ more, c'')⟩
  | fuel + 1, .either first other, c =>
      let r := follow rules fuel first c
      match r.outcome with
      | some _ => r
      | none => (follow rules fuel other c).atLeast r.reached
  | fuel + 1, .many item, c =>
      let r := follow rules fuel item c
      match r.outcome with
      | none => ⟨r.reached, some ([], c)⟩
      | some (trees, c') =>
          if c'.behind ≤ c.behind then ⟨r.reached, some ([], c)⟩ else
            let s := (follow rules fuel (.many item) c').atLeast r.reached
            match s.outcome with
            | none => s
            | some (more, c'') => ⟨s.reached, some (trees ++ more, c'')⟩
  | fuel + 1, .node kind parts, c =>
      let r := follow rules fuel parts c
      ⟨r.reached, r.outcome.map fun (trees, c') => ([.node none kind trees], c')⟩
  | fuel + 1, .playing part item, c =>
      let r := follow rules fuel item c
      ⟨r.reached, r.outcome.map fun (trees, c') => (trees.map (Tree.withRole part), c')⟩
  | fuel + 1, .given test item, c =>
      if test c.rest then follow rules fuel item c else .refuse c
  | fuel + 1, .choose look cases other, c =>
      match cases.find? (·.1 == look c.rest) with
      | some (_, rule) => follow rules fuel rule c
      | none => follow rules fuel other c
  | fuel + 1, .chain item links, c =>
      let r := follow rules fuel item c
      match r.outcome with
      | none => r
      | some (trees, c') => (follow.extend rules fuel links trees c').atLeast r.reached
  | fuel + 1, .only kinds item, c =>
      let r := follow rules fuel item c
      match r.outcome with
      | none => r
      | some (trees, c') =>
          if mayFollow kinds trees then r else ⟨max r.reached c'.behind, none⟩
  | fuel + 1, .named n, c => follow rules fuel (rules n) c

def follow.extend (rules : N → Rule N) :
    Nat → List (List Kind × Option Role × Kind × Rule N) → List Tree → Cursor → Reply
  | 0, _, trees, c => .accept trees c
  | fuel + 1, links, trees, c =>
      let s := follow.link rules fuel links trees c
      match s.outcome with
      | none => ⟨s.reached, some (trees, c)⟩
      | some (longer, c') => (follow.extend rules fuel links longer c').atLeast s.reached

def follow.link (rules : N → Rule N) :
    Nat → List (List Kind × Option Role × Kind × Rule N) → List Tree → Cursor → Reply
  | 0, _, _, c => .refuse c
  | _ + 1, [], _, c => .refuse c
  | fuel + 1, (kinds, part, kind, parts) :: links, trees, c =>
      if mayFollow kinds trees then
        let r := follow rules fuel parts c
        match r.outcome with
        | some (more, c') => ⟨r.reached, some ([.node none kind (linkTo part trees ++ more)], c')⟩
        | none => (follow.link rules fuel links trees c).atLeast r.reached
      else follow.link rules fuel links trees c

end

def all : List (Rule N) → Rule N
  | [] => .nothing
  | [r] => r
  | r :: rs => .both r (all rs)

def one : List (Rule N) → Rule N
  | [] => .given (fun _ => false) .nothing
  | [r] => r
  | r :: rs => .either r (one rs)

def opt (r : Rule N) : Rule N := .either r .nothing

def many1 (r : Rule N) : Rule N := .both r (.many r)

def separated (separator : String) (r : Rule N) : Rule N :=
  .both r (.many (.both (.terminal (.exactly separator)) r))

def commas1 (r : Rule N) : Rule N := separated "," r

def commas (r : Rule N) : Rule N := opt (commas1 r)

def lit (text : String) : Rule N := .terminal (.exactly text)

def tight : List String → Rule N
  | [] => .nothing
  | s :: rest => all (.terminal (.exactly s) :: rest.map fun t => .terminal (.joined t))

end Rule

end JavaAudit.Source
