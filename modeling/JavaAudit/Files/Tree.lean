import JavaAudit.Error
import JavaAudit.Files.Path
import JavaAudit.Text.Utf8

/-! A file system as a value: files, directories and symbolic links below one root, and the directory
in which relative paths begin. -/
namespace JavaAudit

inductive Entry where
  | file (bytes : Text.Bytes)
  | directory (children : List (String × Entry))
  | link (target : String)
  deriving Inhabited

namespace Entry

def child? (name : String) : Entry → Option Entry
  | directory children => (children.find? (·.1 == name)).map Prod.snd
  | _ => none

def isDirectory : Entry → Bool
  | directory _ => true
  | _ => false

def isFile : Entry → Bool
  | file _ => true
  | _ => false

def at? : List String → Entry → Option Entry
  | [], e => some e
  | name :: names, e => do
      let child ← e.child? name
      at? names child

def put (new : Entry) : List String → Entry → Entry
  | [], _ => new
  | name :: names, e =>
      let children := match e with
        | directory children => children
        | _ => []
      let old := ((children.find? (·.1 == name)).map Prod.snd).getD (directory [])
      let changed := put new names old
      if children.any (·.1 == name) then
        directory (children.map fun (other, c) => if other = name then (other, changed) else (other, c))
      else directory (children ++ [(name, changed)])

end Entry

inductive Target where
  | found (names : List String) (entry : Entry)
  -- only the last name is missing in the directory
  | missing (directory : List String) (name : String)
  | fault (cause : IoFault)
  deriving Inhabited

structure FileTree where
  root : Entry
  here : List String
  deriving Inhabited

namespace FileTree

def empty : FileTree := ⟨.directory [], []⟩

/-- Follows pieces of a path from a directory. A link at the end is followed if asked for; the fuel
bounds the number of pieces and links. -/
def follow (t : FileTree) (last : Bool) : Nat → List String → List String → Target
  | 0, _, _ => .fault .tooManyLinks
  | _, names, [] => match t.root.at? names with
      | some e => .found names e
      | none => .fault .noEntry
  | fuel + 1, names, piece :: rest =>
      match t.root.at? names with
      | none => .fault .noEntry
      | some e =>
          if !e.isDirectory then .fault .notDirectory
          else if Path.isIdle piece then follow t last fuel names rest
          else if piece = ".." then follow t last fuel names.dropLast rest
          else match e.child? piece with
            | none => if rest.isEmpty then .missing names piece else .fault .noEntry
            | some (.link target) =>
                if rest.isEmpty && !last then .found (names ++ [piece]) (.link target)
                else
                  follow t last fuel (if Path.isAbsolute target then [] else names)
                    (Path.pieces target ++ rest)
            | some _ => follow t last fuel (names ++ [piece]) rest

def resolve (t : FileTree) (path : String) (last : Bool := true) : Target :=
  if path.isEmpty then .fault .noEntry
  else
    let pieces := Path.pieces path
    follow t last (pieces.length + 400) (if Path.isAbsolute path then [] else t.here) pieces

def entry? (t : FileTree) (path : String) : Option Entry :=
  match t.resolve path with
  | .found _ e => some e
  | _ => none

def exists? (t : FileTree) (path : String) : Bool := (t.entry? path).isSome

def isDirectory (t : FileTree) (path : String) : Bool := (t.entry? path).any Entry.isDirectory

def isFile (t : FileTree) (path : String) : Bool := (t.entry? path).any Entry.isFile

def read (t : FileTree) (path : String) : Except IoFault Text.Bytes :=
  match t.resolve path with
  | .found _ (.file bytes) => .ok bytes
  | .found _ _ => .error .isDirectory
  | .missing .. => .error .noEntry
  | .fault cause => .error cause

def readText (t : FileTree) (path : String) : Except IoFault String := do
  let bytes ← t.read path
  (Text.decode bytes).mapError fun _ => .notText

def write (t : FileTree) (path : String) (bytes : Text.Bytes) : Except IoFault FileTree :=
  match t.resolve path with
  | .found names (.file _) => .ok { t with root := Entry.put (.file bytes) names t.root }
  | .found _ _ => .error .isDirectory
  | .missing directory name => .ok { t with root := Entry.put (.file bytes) (directory ++ [name]) t.root }
  | .fault cause => .error cause

def writeText (t : FileTree) (path text : String) : Except IoFault FileTree :=
  t.write path (Text.encode text)

def makeDirectory (t : FileTree) (path : String) : Except IoFault FileTree :=
  match t.resolve path with
  | .found _ (.directory _) => .ok t
  | .found _ _ => .error .alreadyExists
  | .missing directory name =>
      .ok { t with root := Entry.put (.directory []) (directory ++ [name]) t.root }
  | .fault cause => .error cause

def makeDirectories (t : FileTree) : Nat → String → Except IoFault FileTree
  | 0, _ => .error .noEntry
  | fuel + 1, path =>
      if path.isEmpty then .ok t
      else match t.makeDirectory path with
        | .ok t => .ok t
        | .error cause =>
            if cause = .noEntry then do
              let above ← match Path.parent? path with
                | some above => .ok above
                | none => .error cause
              let t ← makeDirectories t fuel above
              t.makeDirectory path
            else .error cause

end FileTree

end JavaAudit
