import JavaAudit.Source.Grammar.Types

/-! Expressions. Operators bind by level; a lambda and an assignment may stand as any operand and
reach as far as they can. -/
namespace JavaAudit.Source.Grammar
open Rule

def typeFreeWords : List String := valueWords ++ softWords

def operatorLevels : List (List Grammar) :=
  [[lit "||"], [lit "&&"], [lit "|"], [lit "^"], [lit "&"], [lit "==", lit "!="],
    [lit "<=", tight [">", "="], lit "<", lit ">"],
    [lit "<<", tight [">", ">", ">"], tight [">", ">"]],
    [lit "+", lit "-"], [lit "*", lit "/", lit "%"]]

def relationLevel : Nat := 6

def assignmentOperator : Grammar :=
  one [lit "=", lit "+=", lit "-=", lit "*=", lit "/=", lit "&=", lit "|=", lit "^=", lit "%=",
    lit "<<=", tight [">", ">", ">", "="], tight [">", ">", "="]]

def afterTypeWords (arrows : Bool) : List String :=
  if arrows then ["instanceof"] else ["instanceof", "when"]

def instanceOfTail (arrows : Bool) : Grammar :=
  all [lit "instanceof", opt (lit "final"),
    one [ref .recordPattern,
      all [anyType ["final"], opt (identifier (afterTypeWords arrows))]]]

def binaryRule (level : Nat) (arrows : Bool) : Grammar :=
  match operatorLevels[level]? with
  | none => ref (.operand arrows)
  | some operators =>
      let operation : List Kind × Option Role × Kind × Grammar :=
        ([], none, .binary,
          all [.playing .operator (one operators), ref (.binary (level + 1) arrows)])
      .chain (ref (.binary (level + 1) arrows))
        (if level = relationLevel then [operation, ([], none, .instanceOf, instanceOfTail arrows)]
          else [operation])

def expressionRule (arrows : Bool) : Grammar :=
  .chain (ref (.binary 0 arrows))
    [([], none, .ternary,
      all [lit "?", ref (.expression arrows), lit ":", ref (.expression arrows)])]

def lambdaRule : Grammar :=
  .node .lambda (all [
    .playing .parameters (.choose head
      [("(", one [
        .node .inferredParameters (all [lit "(", commas1 (identifier valueWords), lit ")"]),
        ref .formalParameters])]
      (identifier valueWords)),
    lit "->",
    .playing .body (.choose head [(leftBrace, ref .block)] (ref (.expression true)))])

def castRule (arrows : Bool) : Grammar :=
  .node .castExpression (all [lit "(", separated "&" (anyType typeFreeWords), lit ")",
    .playing .value (ref (.operand arrows))])

def operandRule (arrows : Bool) : Grammar :=
  let sign (s : String) (k : Kind) : String × Grammar :=
    (s, .node k (all [lit s, ref (.operand arrows)]))
  let lambda : Grammar := .given (fun ts => arrows && lambdaAhead ts) lambdaRule
  .chain
    (.choose head
      [sign "+" .unary, sign "-" .unary, sign "!" .unary, sign "~" .unary,
        sign "++" .update, sign "--" .update,
        ("switch", ref .switchExpression),
        ("(", one [lambda, .given castAhead (castRule arrows), ref .primary])]
      (one [lambda, ref .primary]))
    [([.identifier, .fieldAccess, .arrayAccess], none, .assignment,
        all [assignmentOperator, ref (.expression arrows)]),
      ([], none, .update, one [lit "++", lit "--"])]

def stringLiteral : Grammar :=
  .node .stringLiteral (one [.terminal (.ofKind .text),
    all [.terminal (.ofKind .textOpen), ref (.expression true),
      .many (all [.terminal (.ofKind .textMiddle), ref (.expression true)]),
      .terminal (.ofKind .textClose)]])

def referenceTail : Grammar :=
  all [lit "::", opt (ref .typeArguments), one [lit "new", identifier ["new"]]]

def typedReference : Grammar :=
  one [
    .node .classLiteral (all [plainType typeFreeWords, lit ".", lit "class"]),
    .given (fun ts => !plainReferenceAhead ts)
      (.node .methodReference (all [anyType typeFreeWords, referenceTail]))]

def primaryStart : Grammar :=
  let literal (w : String) : String × Grammar := (w, .node .literal (lit w))
  .choose head
    ([literal "true", literal "false", literal "null",
        ("this", .node .thisReference (lit "this")),
        ("super", .given (fun ts => second ts == "." || second ts == "::")
          (.node .superReference (lit "super"))),
        ("(", ref .parenthesized),
        ("new", one [ref .objectCreation,
          .node .arrayCreation (all [lit "new", .many (ref .annotationUse),
            .playing .type (simpleType []),
            one [
              all [many1 (.node .dimensionsExpression (all [.many (ref .annotationUse), lit "[",
                  ref (.expression true), lit "]"])), opt (ref .dimensions)],
              all [ref .dimensions, .playing .value (ref .arrayInitializer)]]])]),
        ("@", typedReference)] ++
      primitiveWords.map fun w => (w, typedReference))
    (one [
      .node .literal (.terminal (.ofKind .number)),
      .node .literal (.terminal (.ofKind .character)),
      stringLiteral,
      typedReference,
      .given (fun ts => second ts == "(")
        (.node .methodInvocation (all [.playing .name (identifier valueWords), ref .arguments])),
      identifier valueWords])

def creationParts : Grammar :=
  all [lit "new",
    one [all [.many (ref .annotationUse), ref .typeArguments, .many (ref .annotationUse)],
      .many (ref .annotationUse)],
    .playing .type (simpleType []), ref .arguments, opt (ref .classBody)]

def primaryRule : Grammar :=
  .chain primaryStart
    [([], some .object, .objectCreation, all [lit ".", creationParts]),
      ([], some .object, .methodInvocation,
        all [lit ".", opt (all [.node .superReference (lit "super"), lit "."]),
          opt (ref .typeArguments), .playing .name (identifier dotWords), ref .arguments]),
      ([], some .object, .fieldAccess,
        all [opt (all [lit ".", .node .superReference (lit "super")]), lit ".",
          one [.node .thisReference (lit "this"), identifier dotWords]]),
      ([], none, .templateExpression, all [lit ".", stringLiteral]),
      ([], none, .arrayAccess, all [lit "[", ref (.expression true), lit "]"]),
      ([], none, .methodReference, referenceTail)]

def argumentsRule : Grammar :=
  .node .argumentList (all [lit "(", commas (ref (.expression true)), lit ")"])

def parenthesizedRule : Grammar :=
  .node .parenthesized (all [lit "(", ref (.expression true), lit ")"])

def arrayInitializerRule : Grammar :=
  .node .arrayInitializer (braced (all [commas (ref .initializer), opt (lit ",")]))

def initializerRule : Grammar :=
  .choose head [(leftBrace, ref .arrayInitializer)] (ref (.expression true))

def recordPatternRule : Grammar :=
  let component : Grammar := .node .recordPatternComponent (one [
    all [plainType [], identifier ["_"]],
    .node .underscore (lit "_")])
  .node .recordPattern (all [
    one [.only [.genericType] (classType primitiveWords), identifier primitiveWords],
    .node .recordPatternBody (all [lit "(",
      commas (one [ref .recordPattern, component]), lit ")"])])

def switchLabel : Grammar :=
  .node .switchLabel (one [
    all [lit "case",
      one [
        one [ref .recordPattern,
          .node .typePattern
            (all [plainType typeFreeWords, identifier (afterTypeWords false)])],
        commas1 (ref (.expression false))],
      opt (.node .guard (all [lit "when", ref (.expression false)]))],
    lit "default"])

def switchExpressionRule : Grammar :=
  let rule : Grammar := .node .switchRule (all [switchLabel, lit "->",
    .choose head
      [(leftBrace, ref .block),
        ("throw", .node .throwStatement (all [lit "throw", ref (.expression true), lit ";"]))]
      (.node .expressionStatement (all [ref (.expression true), lit ";"]))])
  let group : Grammar := .node .switchGroup (all [switchLabel, lit ":",
    .many (.given (fun ts => head ts != "case") (ref .statement))])
  .node .switchExpression (all [lit "switch", ref .parenthesized,
    .playing .body (.node .switchBlock (braced (one [many1 rule, .many group])))])

end JavaAudit.Source.Grammar
