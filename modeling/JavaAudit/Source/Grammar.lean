import JavaAudit.Source.Grammar.Declarations

/-! The grammar as a whole: the rule behind each name. -/
namespace JavaAudit.Source
open Grammar

def grammar : Symbol → Grammar
  | .type => typeRule
  | .typeArguments => typeArguments
  | .typeParameters => typeParameters
  | .annotationUse => annotationUse
  | .modifiers => modifiers
  | .dimensions => dimensions
  | .expression arrows => expressionRule arrows
  | .binary level arrows => binaryRule level arrows
  | .operand arrows => operandRule arrows
  | .primary => primaryRule
  | .arguments => argumentsRule
  | .objectCreation => .node .objectCreation creationParts
  | .arrayInitializer => arrayInitializerRule
  | .initializer => initializerRule
  | .elementValue => elementValue
  | .parenthesized => parenthesizedRule
  | .switchExpression => switchExpressionRule
  | .recordPattern => recordPatternRule
  | .statement => statementRule
  | .block => blockRule
  | .localVariable => localVariableRule
  | .declaration => declarationRule
  | .member => memberRule
  | .classBody => classBodyRule
  | .formalParameters => formalParameters
  | .methodDeclaration => methodDeclarationRule
  | .classDeclaration => classDeclarationRule
  | .interfaceDeclaration => interfaceDeclarationRule
  | .enumDeclaration => enumDeclarationRule
  | .recordDeclaration => recordDeclarationRule
  | .annotationTypeDeclaration => annotationTypeDeclarationRule
  | .topLevel => topLevelRule
  | .program => programRule

end JavaAudit.Source
