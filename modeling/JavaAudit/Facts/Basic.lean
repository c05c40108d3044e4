import JavaAudit.Data.NameSet
import JavaAudit.Naming

/-! What is known about one source file after reading it. -/
namespace JavaAudit

inductive TypeKind where
  | plainClass | interface | enumeration | record | annotationType
  deriving DecidableEq, Repr, Inhabited

namespace TypeKind

def name : TypeKind → String
  | plainClass => "class"
  | interface => "interface"
  | enumeration => "enum"
  | record => "record"
  | annotationType => "annotation"

/-- Whether the members of such a type are public unless marked otherwise. -/
def isInterface : TypeKind → Bool
  | interface | annotationType => true
  | _ => false

end TypeKind

inductive Visibility where
  | isPublic | isRestricted
  deriving DecidableEq, Repr, Inhabited

def Visibility.name : Visibility → String
  | isPublic => "public"
  | isRestricted => "nonpublic"

structure TypeInfo where
  fullName : String
  simpleName : String
  package : String
  file : String
  visibility : Visibility
  kind : TypeKind
  isAbstract : Bool
  nested : Bool
  line : Nat
  publicMethods : NameSet
  publicFields : NameSet
  deriving DecidableEq, Inhabited

structure ImportRef where
  path : String
  isStatic : Bool
  isWildcard : Bool
  deriving DecidableEq, Repr, Inhabited

def ImportRef.simpleName (i : ImportRef) : String := JavaAudit.simpleName i.path

structure MethodFacts where
  name : String
  owner : String
  isConstructor : Bool
  parameterCount : Nat
  lineStart : Nat
  lineEnd : Nat
  complexity : Nat
  deriving DecidableEq, Repr, Inhabited

def MethodFacts.lineCount (m : MethodFacts) : Nat := m.lineEnd - m.lineStart + 1

structure FileFacts where
  package : String
  types : List TypeInfo
  imports : List ImportRef
  usedTypes : NameSet
  methods : List MethodFacts
  emptyCatchLines : List Nat
  deriving DecidableEq, Inhabited

namespace FileFacts

def empty : FileFacts := ⟨defaultPackage, [], [], .empty, [], []⟩

def totalComplexity (f : FileFacts) : Nat := (f.methods.map MethodFacts.complexity).foldr (· + ·) 0

end FileFacts

end JavaAudit
