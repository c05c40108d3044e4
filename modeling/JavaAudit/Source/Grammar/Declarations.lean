import JavaAudit.Source.Grammar.Statements

/-! Declarations of modules, packages, imports, types and their members. -/
namespace JavaAudit.Source.Grammar
open Rule

def moduleDeclaration : Grammar :=
  let exported (word : String) : String × Grammar :=
    (word, all [lit word, dottedName, opt (all [lit "to", commas1 dottedName]), lit ";"])
  let directive : Grammar := .node .moduleDirective (.choose head
    [("requires", all [lit "requires", .many (one [lit "transitive", lit "static"]), dottedName,
        lit ";"]),
      exported "exports", exported "opens",
      ("uses", all [lit "uses", dottedName, lit ";"]),
      ("provides", all [lit "provides", dottedName, lit "with", commas1 dottedName, lit ";"])]
    (one []))
  .node .moduleDeclaration (all [.many (ref .annotationUse), opt (lit "open"), lit "module",
    .playing .name dottedName, .playing .body (.node .moduleBody (braced (.many directive)))])

def packageDeclaration : Grammar :=
  .node .packageDeclaration (all [.many (ref .annotationUse), lit "package", dottedName, lit ";"])

def importDeclaration : Grammar :=
  .node .importDeclaration (all [lit "import", opt (lit "static"), dottedName,
    opt (all [lit ".", .node .asterisk (lit "*")]), lit ";"])

def declaredName : Grammar := .playing .name (identifier [])

def superInterfaces : Grammar := .node .superInterfaces (all [lit "implements", typeList])

def permits : Grammar := .node .permits (all [lit "permits", typeList])

def classDeclarationRule : Grammar :=
  .node .classDeclaration (all [opt optModifiers, lit "class", declaredName,
    opt (ref .typeParameters),
    opt (.node .superclass (all [lit "extends", ref .type])),
    opt superInterfaces, opt permits, .playing .body (ref .classBody)])

def recordDeclarationRule : Grammar :=
  .node .recordDeclaration (all [opt optModifiers, lit "record", declaredName,
    opt (ref .typeParameters), .playing .parameters (ref .formalParameters),
    opt superInterfaces, .playing .body (ref .classBody)])

def throwsRule : Grammar := .node .throws (all [lit "throws", commas1 (ref .type)])

def methodDeclarationRule : Grammar :=
  .node .methodDeclaration (all [opt optModifiers,
    opt (all [ref .typeParameters, .many (ref .annotationUse)]),
    .playing .type (plainType memberWords), .playing .name (identifier ["_"]),
    .playing .parameters (ref .formalParameters), opt (ref .dimensions), opt throwsRule,
    one [.playing .body (ref .block), lit ";"]])

def declared (kind : Kind) : Grammar :=
  .node kind (all [opt optModifiers, .playing .type (plainType memberWords),
    commas1 (variableDeclarator []), lit ";"])

def constructorCall : Grammar :=
  let target : Grammar :=
    one [.node .thisReference (lit "this"), .node .superReference (lit "super")]
  .given (constructorCallAhead 0) (.node .explicitConstructorCall (all [
    one [all [opt (ref .typeArguments), .given (fun ts => second ts == "(") target],
      all [.playing .object (ref .primary), lit ".", opt (ref .typeArguments),
        .node .superReference (lit "super")]],
    ref .arguments, lit ";"]))

def constructorDeclaration : Grammar :=
  .node .constructorDeclaration (all [opt optModifiers, opt (ref .typeParameters),
    .playing .name (identifier memberWords), .playing .parameters (ref .formalParameters),
    opt throwsRule,
    .playing .body (.node .constructorBody
      (braced (all [opt constructorCall, .many (ref .statement)])))])

def compactConstructor : Grammar :=
  .node .compactConstructor (all [opt optModifiers, .playing .name (identifier memberWords),
    .playing .body (ref .block)])

def nestedTypes : List (String × Grammar) :=
  [("class", ref .classDeclaration), ("interface", ref .interfaceDeclaration),
    ("enum", ref .enumDeclaration), ("@interface", ref .annotationTypeDeclaration)]

def memberRule : Grammar :=
  .choose headPastModifiers
    (nestedTypes ++
      [("record", ref .recordDeclaration),
        (leftBrace, one [
          .given (fun ts => head ts == "static")
            (.node .staticInitializer (all [lit "static", ref .block])),
          ref .block]),
        (";", lit ";")])
    (one [ref .methodDeclaration, declared .fieldDeclaration, constructorDeclaration,
      compactConstructor])

def classBodyRule : Grammar := .node .classBody (braced (.many (ref .member)))

def interfaceDeclarationRule : Grammar :=
  let member : Grammar := .choose headPastModifiers
    (nestedTypes ++ [("record", ref .recordDeclaration), (";", lit ";")])
    (one [ref .methodDeclaration, declared .constantDeclaration])
  .node .interfaceDeclaration (all [opt optModifiers, lit "interface", declaredName,
    opt (ref .typeParameters),
    opt (.node .extendsInterfaces (all [lit "extends", typeList])), opt permits,
    .playing .body (.node .interfaceBody (braced (.many member)))])

def annotationTypeDeclarationRule : Grammar :=
  let element : Grammar := .node .annotationElement (all [opt optModifiers,
    .playing .type (plainType memberWords), .playing .name (identifier ["_"]), lit "(", lit ")",
    opt (ref .dimensions), opt (all [lit "default", .playing .value (ref .elementValue)]),
    lit ";"])
  let member : Grammar := .choose headPastModifiers (nestedTypes ++ [(";", lit ";")])
    (one [element, declared .constantDeclaration])
  .node .annotationTypeDeclaration (all [opt optModifiers, lit "@interface", declaredName,
    .playing .body (.node .annotationTypeBody (braced (.many member)))])

def enumDeclarationRule : Grammar :=
  let constant : Grammar := .node .enumConstant (all [opt optModifiers,
    .playing .name (identifier modifierWords), opt (ref .arguments),
    opt (.playing .body (ref .classBody))])
  .node .enumDeclaration (all [opt optModifiers, lit "enum", declaredName, opt superInterfaces,
    .playing .body (.node .enumBody (braced (all [commas constant, opt (lit ","),
      opt (.node .enumBodyDeclarations (all [lit ";", .many (ref .member)]))])))])

def declarationRule : Grammar :=
  .choose headPastModifiers
    (nestedTypes ++
      [("record", ref .recordDeclaration), ("package", packageDeclaration),
        ("module", moduleDeclaration), ("open", moduleDeclaration),
        ("import", importDeclaration)])
    (ref .localVariable)

def topLevelRule : Grammar := one [ref .statement, ref .methodDeclaration]

def programRule : Grammar := .node .program (.many (ref .topLevel))

end JavaAudit.Source.Grammar
