import JavaAudit.Source.Grammar.Expressions

/-! Statements. The first word of a statement decides its kind, where it can. -/
namespace JavaAudit.Source.Grammar
open Rule

def expressionStatement : Grammar :=
  .node .expressionStatement (all [ref (.expression true), lit ";"])

def throwStatement : Grammar :=
  .node .throwStatement (all [lit "throw", ref (.expression true), lit ";"])

def localVariableRule : Grammar :=
  .node .localVariable (all [opt optModifiers, .playing .type (plainType typeFreeWords),
    commas1 (variableDeclarator ["instanceof"]), lit ";"])

def catchClause : Grammar :=
  .node .catchClause (all [lit "catch", lit "(",
    .node .catchParameter (all [opt optModifiers,
      .node .catchType (separated "|" (plainType modifierWords)), variableName []]),
    lit ")", .playing .body (ref .block)])

def finallyClause : Grammar := .node .finallyClause (all [lit "finally", ref .block])

def tryStatement : Grammar :=
  let resource : Grammar := .node .resource (one [
    all [opt optModifiers, .playing .type (plainType typeFreeWords), variableName ["instanceof"],
      lit "=", .playing .value (ref (.expression true))],
    .only [.identifier, .fieldAccess] (ref .primary)])
  one [
    .node .tryWithResources (all [lit "try",
      .node .resources (all [lit "(", separated ";" resource, opt (lit ";"), lit ")"]),
      .playing .body (ref .block), .many catchClause, opt finallyClause]),
    .node .tryStatement (all [lit "try", .playing .body (ref .block),
      one [all [many1 catchClause, opt finallyClause], finallyClause]])]

def forStatement : Grammar :=
  let expressions : Grammar := commas (ref (.expression true))
  one [
    .node .enhancedFor (all [lit "for", lit "(", opt optModifiers,
      .playing .type (plainType typeFreeWords), variableName ["instanceof"], lit ":",
      .playing .value (ref (.expression true)), lit ")", .playing .body (ref .statement)]),
    .node .forStatement (all [lit "for", lit "(",
      one [ref .localVariable, all [expressions, lit ";"]],
      opt (ref (.expression true)), lit ";", expressions, lit ")",
      .playing .body (ref .statement)])]

def jump (word : String) (kind : Kind) : Grammar :=
  .node kind (all [lit word, opt (identifier []), lit ";"])

def assertStatement : Grammar :=
  .node .assertStatement (all [lit "assert", ref (.expression true),
    opt (all [lit ":", ref (.expression true)]), lit ";"])

def ifStatement : Grammar :=
  .node .ifStatement (all [lit "if", ref .parenthesized, ref .statement,
    opt (all [lit "else", ref .statement])])

def doStatement : Grammar :=
  .node .doStatement (all [lit "do", .playing .body (ref .statement), lit "while",
    ref .parenthesized, lit ";"])

def synchronizedStatement : Grammar :=
  .node .synchronizedStatement (all [lit "synchronized", ref .parenthesized,
    .playing .body (ref .block)])

def labeledStatement : Grammar :=
  .given (fun ts => second ts == ":")
    (.node .labeled (all [identifier softWords, lit ":", ref .statement]))

def wordStatements : List (String × Grammar) :=
  [(leftBrace, ref .block), (";", lit ";"),
    ("if", ifStatement),
    ("while", .node .whileStatement (all [lit "while", ref .parenthesized,
      .playing .body (ref .statement)])),
    ("for", forStatement),
    ("assert", assertStatement),
    ("do", doStatement),
    ("break", jump "break" .breakStatement),
    ("continue", jump "continue" .continueStatement),
    ("return", .node .returnStatement
      (all [lit "return", opt (ref (.expression true)), lit ";"])),
    ("yield", one [
      .node .yieldStatement (all [lit "yield", ref (.expression true), lit ";"]),
      expressionStatement]),
    ("switch", ref .switchExpression),
    ("synchronized", one [synchronizedStatement, ref .declaration]),
    ("throw", throwStatement),
    ("try", tryStatement),
    ("open", one [ref .declaration, expressionStatement]),
    ("module", one [ref .declaration, expressionStatement]),
    ("record", one [ref .declaration, expressionStatement]),
    ("sealed", one [ref .declaration, expressionStatement]),
    ("with", expressionStatement)] ++
  (["@", "@interface", "class", "interface", "enum", "package", "import"] ++
    modifierWords).map (fun w => (w, ref .declaration)) ++
  ["true", "false", "null", "this", "super", "new"].map (fun w => (w, expressionStatement))

def statementRule : Grammar :=
  .choose head wordStatements
    (one [
      .given (fun ts => head ts == "non" && second ts == "-") (ref .declaration),
      labeledStatement, ref .localVariable, expressionStatement])

def blockRule : Grammar := .node .block (braced (.many (ref .statement)))

end JavaAudit.Source.Grammar
