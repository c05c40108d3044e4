import JavaAudit.Data.NameMap
import JavaAudit.Facts.Basic

/-! All types that a project declares, by full name. A later declaration of a name replaces the
earlier one and leaves a note. -/
namespace JavaAudit

structure DuplicateType where
  fullName : String
  replacedFile : String
  winningFile : String
  deriving DecidableEq, Repr, Inhabited

structure SymbolTable where
  types : NameMap TypeInfo
  duplicates : List DuplicateType
  deriving DecidableEq, Inhabited

namespace SymbolTable

def empty : SymbolTable := ⟨.empty, []⟩

def get? (s : SymbolTable) (name : String) : Option TypeInfo := s.types.get? name

def contains (s : SymbolTable) (name : String) : Bool := s.types.contains name

def names (s : SymbolTable) : List String := s.types.keys

def infos (s : SymbolTable) : List TypeInfo := s.types.values

def size (s : SymbolTable) : Nat := s.types.size

def isEmpty (s : SymbolTable) : Bool := s.types.isEmpty

def insert (s : SymbolTable) (t : TypeInfo) : SymbolTable where
  types := s.types.insert t.fullName t
  duplicates := match s.get? t.fullName with
    | some old => s.duplicates ++ [⟨old.fullName, old.file, t.file⟩]
    | none => s.duplicates

def exchange (s : SymbolTable) (t : TypeInfo) : Option TypeInfo × SymbolTable :=
  (s.get? t.fullName, s.insert t)

def insertAll (s : SymbolTable) (ts : List TypeInfo) : SymbolTable := ts.foldl insert s

def byPackage (s : SymbolTable) : NameMap (List TypeInfo) :=
  s.infos.foldl (fun m t => m.alter t.package fun ts => ts.getD [] ++ [t]) .empty

def packages (s : SymbolTable) : NameSet := .ofList (s.infos.map TypeInfo.package)

def packageCount (s : SymbolTable) : Nat := s.packages.size

end SymbolTable

end JavaAudit
