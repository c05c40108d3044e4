import JavaAudit.Source.Token

/-! Syntax trees. The leaves of a tree are tokens, in the order of the source; everything else about
a tree, its text and its extent, is read off its leaves. -/
namespace JavaAudit.Source

inductive Kind where
  -- names and types
  | identifier | scopedIdentifier | typeIdentifier | scopedTypeIdentifier | genericType
  | arrayType | annotatedType | voidType | integralType | floatingType | booleanType
  | typeArguments | wildcard | dimensions | dimensionsExpression
  | typeParameters | typeParameter | typeBound | typeList
  -- annotations and modifiers
  | annotationBare | annotationCall | annotationArguments | elementPair | elementArray | modifiers
  -- expressions
  | literal | stringLiteral | thisReference | superReference | classLiteral | parenthesized
  | assignment | binary | instanceOf | lambda | inferredParameters | ternary | update | unary
  | castExpression | switchExpression | objectCreation | arrayCreation | arrayInitializer
  | fieldAccess | arrayAccess | methodInvocation | methodReference | templateExpression
  | argumentList
  -- switch blocks and patterns
  | switchBlock | switchGroup | switchRule | switchLabel | typePattern | recordPattern
  | recordPatternBody | recordPatternComponent | underscore | guard
  -- statements
  | block | expressionStatement | labeled | ifStatement | whileStatement | forStatement
  | enhancedFor | assertStatement | doStatement | breakStatement | continueStatement
  | returnStatement | yieldStatement | synchronizedStatement | throwStatement | tryStatement
  | tryWithResources | resources | resource | catchClause | catchParameter | catchType
  | finallyClause | localVariable
  -- declarations
  | moduleDeclaration | moduleBody | moduleDirective | packageDeclaration | importDeclaration
  | asterisk | classDeclaration | recordDeclaration | interfaceDeclaration
  | annotationTypeDeclaration | enumDeclaration | superclass | superInterfaces
  | extendsInterfaces | permits | classBody | interfaceBody | annotationTypeBody | enumBody
  | enumBodyDeclarations | enumConstant | fieldDeclaration | constantDeclaration
  | annotationElement | methodDeclaration | constructorDeclaration | compactConstructor
  | constructorBody | explicitConstructorCall | staticInitializer | variableDeclarator
  | formalParameters | formalParameter | spreadParameter | receiverParameter | throws
  -- whole sources
  | program | error
  deriving DecidableEq, Repr, Inhabited

inductive Role where
  | name | type | parameters | body | value | object | operator
  deriving DecidableEq, Repr, Inhabited

inductive Tree where
  | leaf (role : Option Role) (token : Token)
  | node (role : Option Role) (kind : Kind) (children : List Tree)
  deriving Inhabited

namespace Tree

def role : Tree → Option Role
  | leaf r _ => r
  | node r _ _ => r

def withRole (r : Role) : Tree → Tree
  | leaf _ t => leaf (some r) t
  | node _ k cs => node (some r) k cs

def kind? : Tree → Option Kind
  | leaf _ _ => none
  | node _ k _ => some k

def children : Tree → List Tree
  | leaf _ _ => []
  | node _ _ cs => cs

mutual

def leaves : Tree → List Token
  | leaf _ t => [t]
  | node _ _ cs => leavesOf cs

def leavesOf : List Tree → List Token
  | [] => []
  | t :: ts => t.leaves ++ leavesOf ts

end

mutual

def preorder : Tree → List Tree
  | leaf r t => [leaf r t]
  | node r k cs => node r k cs :: preorderOf cs

def preorderOf : List Tree → List Tree
  | [] => []
  | t :: ts => t.preorder ++ preorderOf ts

end

theorem preorderOfEq (ts : List Tree) : preorderOf ts = ts.flatMap preorder := by
  induction ts with
  | nil => rfl
  | cons t ts ih => rw [preorderOf, ih, List.flatMap_cons]

theorem preorderEq (t : Tree) : t.preorder = t :: preorderOf t.children := by
  cases t <;> rfl

@[simp] theorem leavesOfAppend (ts us : List Tree) :
    leavesOf (ts ++ us) = leavesOf ts ++ leavesOf us := by
  induction ts with
  | nil => rfl
  | cons t ts ih => simp [leavesOf, ih]

@[simp] theorem leavesWithRole (r : Role) (t : Tree) : (t.withRole r).leaves = t.leaves := by
  cases t <;> rfl

def spell : List Token → String
  | [] => ""
  | t :: ts => ts.foldl (fun s u => s ++ u.lead ++ u.text) t.text

def text (t : Tree) : String := spell t.leaves

def start (t : Tree) : Place := (t.leaves.head?.map Token.start).getD {}

def stop (t : Tree) : Place := (t.leaves.getLast?.map Token.stop).getD {}

def inRole? (r : Role) (t : Tree) : Option Tree :=
  t.children.find? (·.role == some r)

def isKind (t : Tree) (k : Kind) : Bool := t.kind? == some k

def isLeaf (text : String) : Tree → Bool
  | leaf _ t => t.text == text
  | node _ _ _ => false

def isNode : Tree → Bool
  | leaf _ _ => false
  | node _ _ _ => true

end Tree

end JavaAudit.Source
