import JavaAudit.Source.Tree
import JavaAudit.Text.Blank
import JavaAudit.Facts.Basic

/-! What can be found at one tree of a source: the package it names, a type or a method it declares, the
types it mentions. A public member is told apart from the method or field that it is, since it counts
for the type around it only. -/
namespace JavaAudit
open Source

def pathBelow (enclosing : Option String) (name : String) : String :=
  match enclosing with
  | some outer => outer ++ "." ++ name
  | none => name

structure Declared where
  /-- The names of the enclosing named types with dots between them, the outermost first. -/
  enclosing : Option String
  name : String
  visibility : Visibility
  kind : TypeKind
  isAbstract : Bool
  line : Nat
  publicMethods : NameSet := .empty
  publicFields : NameSet := .empty
  deriving Inhabited

namespace Declared

def toTypeInfo (d : Declared) (package file : String) : TypeInfo where
  fullName := qualify package (pathBelow d.enclosing d.name)
  simpleName := d.name
  package := package
  file := file
  visibility := d.visibility
  kind := d.kind
  isAbstract := d.isAbstract
  nested := d.enclosing.isSome
  line := d.line
  publicMethods := d.publicMethods
  publicFields := d.publicFields

end Declared

inductive Event where
  | package (name : String)
  | imports (ref : ImportRef)
  | declares (d : Declared)
  | method (facts : MethodFacts)
  | uses (name : String)
  | emptyCatch (line : Nat)
  | publicMethod (name : String)
  | publicField (name : String)

namespace Event

def publicMethod? : Event → Option String
  | publicMethod n => some n
  | _ => none

def publicField? : Event → Option String
  | publicField n => some n
  | _ => none

def isMember : Event → Bool
  | publicMethod _ | publicField _ => true
  | _ => false

end Event

structure Owner where
  name : String
  isInterface : Bool
  deriving DecidableEq, Repr

namespace Source.Tree

/-- A dotted name as it is recorded: its text without blanks. -/
def dotted (t : Tree) : String := Text.squeeze t.text

def isName (t : Tree) : Bool := t.isKind .identifier || t.isKind .scopedIdentifier

def hasModifier (word : String) (t : Tree) : Bool :=
  t.children.any fun c => c.isKind .modifiers && c.children.any (isLeaf word)

def lastSegment (t : Tree) : String :=
  ((t.children.filter (·.isKind .typeIdentifier)).getLast?.map text).getD (simpleName t.text)

mutual

def typeNames : Tree → List String
  | leaf _ _ => []
  | node r k cs =>
      match k with
      | .typeIdentifier => [(node r k cs).text]
      | .scopedTypeIdentifier => [(node r k cs).lastSegment]
      | .integralType | .floatingType | .booleanType | .voidType => []
      | _ => typeNamesOf cs

def typeNamesOf : List Tree → List String
  | [] => []
  | t :: ts => t.typeNames ++ typeNamesOf ts

end

def isBranch (t : Tree) : Bool :=
  match t.kind? with
  | some .ifStatement | some .whileStatement | some .forStatement | some .enhancedFor
  | some .doStatement | some .catchClause | some .switchGroup | some .switchRule
  | some .ternary => true
  | some .binary => (t.inRole? .operator).any fun o => o.isLeaf "&&" || o.isLeaf "||"
  | _ => false

def isMeasuredApart (k : Kind) : Bool :=
  k == .classDeclaration || k == .interfaceDeclaration || k == .enumDeclaration ||
    k == .recordDeclaration

mutual

def branches : Tree → Nat
  | leaf _ _ => 0
  | node r k cs =>
      if isMeasuredApart k then 0
      else (if (node r k cs).isBranch then 1 else 0) + branchesOf cs

def branchesOf : List Tree → Nat
  | [] => 0
  | t :: ts => t.branches + branchesOf ts

end

def isBare (t : Tree) : Bool := !t.children.any isNode

def isTypeBody (t : Tree) : Bool :=
  t.isKind .classBody || t.isKind .interfaceBody || t.isKind .enumBody ||
    t.isKind .annotationTypeBody

def isHeritage (t : Tree) : Bool :=
  t.isKind .superclass || t.isKind .superInterfaces || t.isKind .extendsInterfaces ||
    t.isKind .formalParameters

def parameters (t : Tree) : List Tree :=
  ((t.inRole? .parameters).map fun p =>
    p.children.filter fun c => c.isKind .formalParameter || c.isKind .spreadParameter).getD []

end Source.Tree

inductive Treatment where
  | package | imports | method | field | localVariable | creation | constant | invocation | catching
  | type (kind : TypeKind)
  | other
  deriving DecidableEq

def treatment : Kind → Treatment
  | .packageDeclaration => .package
  | .importDeclaration => .imports
  | .classDeclaration => .type .plainClass
  | .interfaceDeclaration => .type .interface
  | .enumDeclaration => .type .enumeration
  | .recordDeclaration => .type .record
  | .annotationTypeDeclaration => .type .annotationType
  | .methodDeclaration | .constructorDeclaration | .compactConstructor => .method
  | .fieldDeclaration | .constantDeclaration => .field
  | .localVariable => .localVariable
  | .objectCreation => .creation
  | .enumConstant => .constant
  | .methodInvocation => .invocation
  | .catchClause => .catching
  | _ => .other

open Tree

def usesOf (names : List String) : List Event :=
  (names.map Text.trim).filterMap fun n => if n = "" ∨ n = "var" then none else some (.uses n)

def typeUses (t : Tree) : List Event :=
  usesOf (((t.inRole? .type).map typeNames).getD [])

def packageEvents (t : Tree) : List Event :=
  ((t.children.find? isName).map fun c => Event.package c.dotted).toList

def importEvents (t : Tree) : List Event :=
  ((t.children.filter isName).getLast?.map fun c => Event.imports {
    path := c.dotted
    isStatic := t.children.any (isLeaf "static")
    isWildcard := t.children.any (·.isKind .asterisk) }).toList

def methodFacts (o : Owner) (k : Kind) (t : Tree) : MethodFacts where
  name := ((t.inRole? .name).map text).getD o.name
  owner := o.name
  isConstructor := k != .methodDeclaration
  parameterCount := t.parameters.length
  lineStart := t.start.line
  lineEnd := t.stop.line
  complexity := 1 + t.branches

def memberEvents (o : Owner) (k : Kind) (t : Tree) : List Event :=
  let facts := methodFacts o k t
  let visible := t.hasModifier "public" || (o.isInterface && !t.hasModifier "private")
  (if visible then [.publicMethod facts.name] else []) ++ [.method facts]

def fieldEvents (o : Owner) (t : Tree) : List Event :=
  if t.hasModifier "public" || o.isInterface then
    ((t.children.filter (·.isKind .variableDeclarator)).filterMap (inRole? .name)).map
      fun n => .publicField n.text
  else []

def declared (enclosing : Option String) (kind : TypeKind) (name : String) (t : Tree) : Declared where
  enclosing := enclosing
  name := name
  visibility := if t.hasModifier "public" then .isPublic else .isRestricted
  kind := kind
  isAbstract := t.hasModifier "abstract"
  line := t.start.line

def objectUses (t : Tree) : List Event :=
  match t.inRole? .object with
  | some o => if o.isKind .identifier then usesOf [o.text] else []
  | none => []

def catchEvents (t : Tree) : List Event :=
  match t.inRole? .body with
  | some b => if b.isBare then [.emptyCatch t.start.line] else []
  | none => []

end JavaAudit
