import JavaAudit.Source.Rule

/-! What the parts of the grammar share: the names of its rules, the words that are reserved in one
place or another, and the tests that look ahead. A word is reserved only where the grammar could
take it as such, so there is no list of reserved words for the language as a whole. -/
namespace JavaAudit.Source

inductive Symbol where
  | type | typeArguments | typeParameters | annotationUse | modifiers | dimensions
  /-- `arrows`: a lambda may stand here. It may not where the arrow ends a label. -/
  | expression (arrows : Bool)
  | binary (level : Nat) (arrows : Bool)
  | operand (arrows : Bool)
  | primary | arguments | objectCreation | arrayInitializer | initializer | elementValue
  | parenthesized | switchExpression | recordPattern
  | statement | block | localVariable
  | declaration | member | classBody | formalParameters | methodDeclaration
  | classDeclaration | interfaceDeclaration | enumDeclaration | recordDeclaration
  | annotationTypeDeclaration
  | topLevel | program
  deriving DecidableEq, Repr

abbrev Grammar := Rule Symbol

namespace Grammar

def leftBrace : String := "\x7b"

def rightBrace : String := "\x7d"

def primitiveWords : List String :=
  ["byte", "short", "int", "long", "char", "float", "double", "boolean", "void"]

def valueWords : List String :=
  ["true", "false", "null", "this", "super", "new", "switch"] ++ primitiveWords

/-- Words that open a declaration or a statement but may name a variable or a method as well. -/
def softWords : List String := ["open", "module", "record", "with", "sealed", "yield"]

def modifierWords : List String :=
  ["public", "protected", "private", "abstract", "static", "final", "strictfp", "default",
    "synchronized", "native", "transient", "volatile", "sealed"]

def memberWords : List String :=
  modifierWords ++ primitiveWords ++ ["class", "interface", "enum", "record"]

def dotWords : List String := ["new", "super", "this", "class"]

def head : List Token → String
  | t :: _ => t.text
  | [] => ""

def second (ts : List Token) : String := head (ts.drop 1)

def pastParentheses (depth : Nat) : List Token → List Token
  | [] => []
  | t :: ts =>
      if t.text == "(" then pastParentheses (depth + 1) ts
      else if t.text == ")" then
        if depth ≤ 1 then ts else pastParentheses (depth - 1) ts
      else pastParentheses depth ts

def pastName : List Token → List Token
  | w :: dot :: rest => if dot.text == "." then pastName rest else
      if w.kind == .word then dot :: rest else w :: dot :: rest
  | [w] => if w.kind == .word then [] else [w]
  | [] => []

def pastModifiers : Nat → List Token → List Token
  | 0, ts => ts
  | _ + 1, [] => []
  | bound + 1, t :: ts =>
      if t.text == "@" then
        let rest := pastName ts
        pastModifiers bound (if head rest == "(" then pastParentheses 0 rest else rest)
      else if t.text == "non" && head ts == "-" && second ts == "sealed" then
        pastModifiers bound (ts.drop 2)
      else if modifierWords.contains t.text then pastModifiers bound ts
      else t :: ts

def headPastModifiers (ts : List Token) : String := head (pastModifiers ts.length ts)

/-- A parenthesis whose closing one is followed by an arrow, or a single name with an arrow. -/
def lambdaAhead (ts : List Token) : Bool :=
  if head ts == "(" then head (pastParentheses 0 ts) == "->" else second ts == "->"

def opensOperand : List Token → Bool
  | [] => false
  | t :: _ =>
      match t.kind with
      | .word => t.text != "instanceof"
      | .number | .character | .text | .textOpen => true
      | .sign => ["(", "!", "~"].contains t.text
      | _ => false

/-- Whether what stands between parentheses may be the type of a cast. A plain name may be a value
as well, so the token behind the parentheses decides. -/
def castAhead (ts : List Token) : Bool :=
  let inner := ts.drop 1
  if primitiveWords.contains (head inner) then true else
    match inner with
    | w :: _ =>
        let rest := pastName inner
        if w.kind == .word && head rest == ")" then
          let behind := rest.drop 1
          opensOperand behind ||
            (["++", "--"].contains (head behind) && opensOperand (behind.drop 1))
        else true
    | [] => false

def plainReferenceAhead (ts : List Token) : Bool := head (pastName ts) == "::"

def constructorCallAhead (depth : Nat) : List Token → Bool
  | [] => false
  | t :: ts =>
      if ["(", "[", leftBrace].contains t.text then constructorCallAhead (depth + 1) ts
      else if [")", "]", rightBrace].contains t.text then
        if depth = 0 then false else constructorCallAhead (depth - 1) ts
      else if depth = 0 && t.text == ";" then false
      else if depth = 0 && (t.text == "super" || t.text == "this") && head ts == "(" then true
      else constructorCallAhead depth ts

open Rule

def ref (s : Symbol) : Grammar := .named s

def identifier (reserved : List String) : Grammar :=
  .node .identifier (.terminal (.name reserved))

def typeIdentifier (reserved : List String) : Grammar :=
  .node .typeIdentifier (.terminal (.name reserved))

def dottedName : Grammar :=
  .chain (identifier []) [([], none, .scopedIdentifier, all [lit ".", identifier []])]

def braced (r : Grammar) : Grammar := all [lit leftBrace, r, lit rightBrace]

end Grammar

end JavaAudit.Source
