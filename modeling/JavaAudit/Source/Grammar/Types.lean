import JavaAudit.Source.Grammar.Basic

/-! Types, annotations, modifiers and what declares a variable. -/
namespace JavaAudit.Source.Grammar
open Rule

def primitiveType : Grammar :=
  .choose head
    [("void", .node .voidType (lit "void")), ("boolean", .node .booleanType (lit "boolean")),
      ("byte", .node .integralType (lit "byte")), ("short", .node .integralType (lit "short")),
      ("int", .node .integralType (lit "int")), ("long", .node .integralType (lit "long")),
      ("char", .node .integralType (lit "char")), ("float", .node .floatingType (lit "float")),
      ("double", .node .floatingType (lit "double"))]
    (one [])

def classType (reserved : List String) : Grammar :=
  .chain (typeIdentifier reserved)
    [([], none, .genericType,
        .both (ref .typeArguments) (.given (fun ts => head ts != "<") .nothing)),
      ([], none, .scopedTypeIdentifier,
        all [lit ".", .many (ref .annotationUse), typeIdentifier dotWords])]

def simpleType (reserved : List String) : Grammar :=
  one [primitiveType, classType (primitiveWords ++ reserved)]

def plainType (reserved : List String) : Grammar :=
  .chain (simpleType reserved) [([], none, .arrayType, ref .dimensions)]

def anyType (reserved : List String) : Grammar :=
  one [.node .annotatedType (all [many1 (ref .annotationUse), plainType reserved]),
    plainType reserved]

def typeRule : Grammar := anyType []

def typeArguments : Grammar :=
  .node .typeArguments (all [lit "<",
    commas (one [
      .node .wildcard (all [.many (ref .annotationUse), lit "?",
        opt (one [all [lit "extends", ref .type],
          all [.node .superReference (lit "super"), ref .type]])]),
      ref .type]),
    lit ">"])

def typeParameters : Grammar :=
  .node .typeParameters (all [lit "<",
    commas1 (.node .typeParameter (all [.many (ref .annotationUse), typeIdentifier [],
      opt (.node .typeBound (all [lit "extends", separated "&" (ref .type)]))])),
    lit ">"])

def typeList : Grammar := .node .typeList (commas1 (ref .type))

def dimensions : Grammar :=
  .node .dimensions (many1 (all [.many (ref .annotationUse), lit "[", lit "]"]))

def annotationUse : Grammar :=
  let pair : Grammar := .node .elementPair
    (all [.playing .name (identifier valueWords), lit "=", .playing .value (ref .elementValue)])
  one [
    .node .annotationCall (all [lit "@", .playing .name dottedName,
      .node .annotationArguments (all [lit "(",
        one [all [commas pair, lit ")"], all [ref .elementValue, lit ")"]]])]),
    .node .annotationBare (all [lit "@", .playing .name dottedName])]

def elementValue : Grammar :=
  .choose head
    [(leftBrace, .node .elementArray
        (braced (all [commas (ref .elementValue), opt (lit ",")]))),
      ("@", ref .annotationUse)]
    (ref (.expression true))

def modifiers : Grammar :=
  .node .modifiers (many1 (.choose head
    ([("@", ref .annotationUse), ("non", tight ["non", "-", "sealed"])] ++
      modifierWords.map fun w => (w, lit w))
    (one [])))

def optModifiers : Grammar :=
  .given (fun ts => head ts == "@" || head ts == "non" || modifierWords.contains (head ts))
    (ref .modifiers)

def variableName (reserved : List String) : Grammar :=
  all [.playing .name (one [.node .underscore (lit "_"), identifier reserved]),
    opt (ref .dimensions)]

def variableDeclarator (reserved : List String) : Grammar :=
  .node .variableDeclarator (all [variableName reserved,
    opt (all [lit "=", .playing .value (ref .initializer)])])

def formalParameters : Grammar :=
  let receiver : Grammar := .node .receiverParameter
    (all [.many (ref .annotationUse), plainType modifierWords,
      .many (all [identifier ["this"], lit "."]), .node .thisReference (lit "this")])
  let spread : Grammar := .node .spreadParameter
    (all [opt optModifiers, plainType modifierWords, lit "...", .many (ref .annotationUse),
      variableDeclarator []])
  let plain : Grammar := .node .formalParameter
    (all [opt optModifiers, .playing .type (plainType modifierWords), variableName ["this"]])
  .node .formalParameters (all [lit "(",
    opt (all [receiver, .given (fun ts => head ts == "," || head ts == ")") (opt (lit ","))]),
    commas (one [spread, plain]),
    lit ")"])

end JavaAudit.Source.Grammar
