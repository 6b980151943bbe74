import ImportAtlas.Grammar.Rules.Expression

/-!
# Functions and classes
-/

namespace ImportAtlas.Grammar.Rules

open Rule

/-! ## Functions -/

def signatureOf (dialect : Dialect) : Rule :=
  if dialect.isTyped then .part .signature else .part .formalParameters

def signature : Rule :=
  seq [maybe (.part .typeParameters), .part .formalParameters,
    maybe (parts [.typeAscription, .assertionAscription,
      .typePredicateAscription])]

def formalParameters (dialect : Dialect) : Rule :=
  let one := if dialect.isTyped then .part .parameter
    else parts [.pattern, .assignmentPattern]
  enclosed (maybe (seq [commas one, maybe (mark ",")]))

def parameter : Rule := parts [.requiredParameter, .optionalParameter]

def parameterName : Rule :=
  seq [zeroOrMore (.part .decorator), maybe (.part .accessibilityModifier),
    maybe (.part .overrideModifier), maybe (word "readonly"),
    choice [.part .pattern, thisWord]]

def requiredParameter : Rule :=
  seq [.part .parameterName, maybe (.part .typeAscription),
    maybe (.part .initializer)]

def optionalParameter : Rule :=
  seq [.part .parameterName, mark "?", maybe (.part .typeAscription),
    maybe (.part .initializer)]

def functionWords (isGenerator : Bool) : List Rule :=
  [maybe (word "async"), word "function"] ++ if isGenerator then
    [mark "*"] else []

def functionExpression (isGenerator : Bool) (dialect : Dialect) : Rule :=
  withRank .literal
    (seq (functionWords isGenerator ++ [
      .label .name (maybe identifier), signatureOf dialect,
      .part .statementBlock]))

def functionDeclaration (isGenerator : Bool) (dialect : Dialect) : Rule :=
  rightmost .declaration
    (seq (functionWords isGenerator ++ [
      .label .name identifier, signatureOf dialect, .part .statementBlock,
      unwrittenEnd]))

def functionSignature : Rule :=
  seq (functionWords false ++ [
    .label .name identifier, .part .signature,
    choice [semicolon, shape .signatureEnd]])

def arrowFunction (dialect : Dialect) : Rule :=
  seq [maybe (word "async"),
    choice [.shown .identifier (anyName dialect), signatureOf dialect],
    mark "=>",
    parts [.expression, .statementBlock]]

/-! ## Decorators -/

def decorator (dialect : Dialect) : Rule :=
  seq [mark "@",
    choice ([
      identifier,
      .shown .memberExpression (.part .decoratorMember),
      .shown .callExpression (.part .decoratorCall)] ++
      whenTyped dialect
        [.shown .parenthesized (.part .decoratorParenthesized)])]

def decoratorMember : Rule :=
  withRank .member
    (seq [choice [identifier,
      .shown .memberExpression (.part .decoratorMember)], mark ".",
      .label .property plainName])

def decoratorCall (dialect : Dialect) : Rule :=
  withRank .call
    (seq
      ([.label .head (choice [identifier,
        .shown .memberExpression (.part .decoratorMember)])] ++
      optionalTypeArguments dialect ++ [.label .arguments (.part .arguments)]))

def decoratorParenthesized : Rule :=
  enclosed (choice [
    identifier,
    .shown .memberExpression (.part .decoratorMember),
    .shown .callExpression (.part .decoratorCall)])

def decorators : Rule := zeroOrMore (.part .decorator)

/-! ## Classes -/

def className (dialect : Dialect) : Rule :=
  .label .name (if dialect.isTyped then plainName else identifier)

def classTail (dialect : Dialect) : List Rule :=
  whenTyped dialect [maybe (.part .typeParameters)] ++
    [maybe (.part .classHeritage), .part .classBody]

def classExpression (dialect : Dialect) : Rule :=
  withRank .literal
    (seq ([decorators, word "class", maybe (className dialect)] ++
      classTail dialect))

def classDeclaration (dialect : Dialect) : Rule :=
  let body :=
    seq ([decorators, word "class", className dialect] ++ classTail dialect ++
      [unwrittenEnd])
  if dialect.isTyped then leftmost .declaration body
  else withRank .declaration body

def abstractClassDeclaration (dialect : Dialect) : Rule :=
  withRank .declaration
    (seq ([decorators, word "abstract", word "class", className dialect] ++
      classTail dialect))

def classHeritage (dialect : Dialect) : Rule :=
  if dialect.isTyped then
    choice [seq [.part .extendsClause, maybe (.part .implementsClause)],
      .part .implementsClause]
  else seq [word "extends", .part .expression]

def extendsClause : Rule := seq [word "extends", commas (.part .superclass)]

def superclass : Rule :=
  withRank .extension
    (seq [.label .value (.part .expression), maybe (.part .typeArguments)])

def implementsClause : Rule := seq [word "implements", commas (.part .type)]

def classBody (dialect : Dialect) : Rule :=
  braced (zeroOrMore (choice (
    if dialect.isTyped then [
      seq [decorators, .part .methodDefinition, maybe semicolon],
      seq [.part .methodSignature, choice [shape .signatureEnd, mark ","]],
      .part .classStaticBlock,
      seq [
        parts [.abstractMethodSignature, .indexSignature, .methodSignature,
          .typedFieldDefinition],
        choice [semicolon, mark ","]],
      mark ";"]
    else [
      seq [.part .methodDefinition, maybe (mark ";")],
      seq [.part .fieldDefinition, choice [shape .statementEnd, mark ";"]],
      .part .classStaticBlock,
      mark ";"])))

def classStaticBlock : Rule :=
  seq [word "static", unwrittenEnd, .part .statementBlock]

def fieldDefinition : Rule :=
  seq [decorators, maybe (word "static"), .label .property (.part .propertyKey),
    maybe (.part .initializer)]

def typedFieldDefinition : Rule :=
  seq [decorators,
    maybe (choice [
      seq [word "declare", maybe (.part .accessibilityModifier)],
      seq [.part .accessibilityModifier, maybe (word "declare")]]),
    choice [
      seq [maybe (word "static"), maybe (.part .overrideModifier),
        maybe (word "readonly")],
      seq [maybe (word "abstract"), maybe (word "readonly")],
      seq [maybe (word "readonly"), maybe (word "abstract")],
      maybe (word "accessor")],
    .label .name (.part .propertyKey),
    maybe (marks ["?", "!"]),
    maybe (.part .typeAscription),
    maybe (.part .initializer)]

/-! ## Methods -/

def methodMark : Rule := maybe (choice [words ["get", "set"], mark "*"])

def methodModifiers : List Rule :=
  [maybe (.part .accessibilityModifier), maybe (word "static"),
    maybe (.part .overrideModifier), maybe (word "readonly"),
    maybe (word "async"), methodMark]

def methodDefinition (dialect : Dialect) : Rule :=
  if dialect.isTyped then
    early (seq (methodModifiers ++ [
      .label .name (.part .propertyKey), maybe (mark "?"), .part .signature,
      .part .statementBlock]))
  else
    seq [decorators, maybe (choice [word "static", shape .staticGetter]),
      maybe (word "async"), methodMark, .label .name (.part .propertyKey),
      .part .formalParameters, .part .statementBlock]

def methodSignature : Rule :=
  seq (methodModifiers ++ [.label .name (.part .propertyKey), maybe (mark "?"),
    .part .signature])

def abstractMethodSignature : Rule :=
  seq [maybe (.part .accessibilityModifier), word "abstract",
    maybe (.part .overrideModifier), methodMark,
    .label .name (.part .propertyKey), maybe (mark "?"), .part .signature]

def accessibilityModifier : Rule := words ["public", "private", "protected"]

def overrideModifier : Rule := word "override"

/-! ## Modules and enumerations -/

def ambientDeclaration : Rule :=
  seq [word "declare",
    choice [
      .part .declaration,
      seq [word "global", .part .statementBlock],
      seq [word "module", mark ".", plainName, mark ":", .part .type,
        semicolon]]]

def moduleDeclaration : Rule := seq [word "module", .part .moduleTail]

def internalModule : Rule := seq [word "namespace", .part .moduleTail]

def moduleTail : Rule :=
  late
    (seq [.label .name (choice [.part .string, identifier, .part .dottedName]),
      maybe (.part .statementBlock)])

def enumDeclaration : Rule :=
  seq [maybe (word "const"), word "enum", .label .name identifier,
    .part .enumBody]

def enumBody : Rule :=
  braced (maybe (seq [
    commas (choice [.label .name (.part .propertyKey), .part .enumAssignment]),
    maybe (mark ",")]))

def enumAssignment : Rule :=
  seq [.label .name (.part .propertyKey), .part .initializer]

end ImportAtlas.Grammar.Rules
