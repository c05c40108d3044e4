import JavaAudit.Files.Tree

/-! What can be seen below a directory, with symbolic links followed or left alone. A link back to a
directory that contains it is not followed. -/
namespace JavaAudit

inductive Listing where
  | file
  | directory (children : List (String × Listing))
  | alias
  | broken (cause : IoFault)
  | loop (ancestor : List String)
  deriving Inhabited

namespace Listing

structure Stage where
  shown : List String
  actual : List String
  deriving DecidableEq, Repr, Inhabited

/-- What becomes of a link, given the stages above it, innermost first, and its own. -/
abbrev LinkRule := List Stage → Stage → Listing

mutual

def ofEntry (rule : LinkRule) (above : List Stage) (here : Stage) : Entry → Listing
  | .file _ => .file
  | .link _ => rule above here
  | .directory children => .directory (ofChildren rule (here :: above) here children)

def ofChildren (rule : LinkRule) (above : List Stage) (parent : Stage) :
    List (String × Entry) → List (String × Listing)
  | [] => []
  | (name, e) :: rest =>
      (name, ofEntry rule above ⟨parent.shown ++ [name], parent.actual ++ [name]⟩ e) ::
        ofChildren rule above parent rest

end

def ignoring : LinkRule := fun _ _ => .alias

/-- Follows a link, and the links below its target as long as the fuel lasts. -/
def following (t : FileTree) : Nat → LinkRule
  | 0 => ignoring
  | fuel + 1 => fun above here =>
      match t.follow true 400 [] here.actual with
      | .missing .. => .broken .noEntry
      | .fault cause => .broken cause
      | .found actual e =>
          match e.isDirectory, above.find? (·.actual = actual) with
          | true, some stage => .loop stage.shown
          | _, _ => ofEntry (following t fuel) above ⟨here.shown, actual⟩ e

mutual

def entrySize : Entry → Nat
  | .file _ => 1
  | .link _ => 1
  | .directory children => childrenSize children + 1

def childrenSize : List (String × Entry) → Nat
  | [] => 0
  | (_, e) :: rest => entrySize e + childrenSize rest

end

def at? (t : FileTree) (followLinks : Bool) (path : String) : Option Listing :=
  match t.resolve path with
  | .found names e =>
      let rule := if followLinks then following t (entrySize t.root + 1) else ignoring
      some (ofEntry rule [] ⟨[], names⟩ e)
  | _ => none

end Listing

end JavaAudit
