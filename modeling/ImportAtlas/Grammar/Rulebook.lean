import ImportAtlas.Grammar.Rules.Markup
import ImportAtlas.Grammar.Rules.Module
import ImportAtlas.Grammar.Rules.Type

/-!
# The rules of a dialect

One rule for each category, and the lists of ranks from the highest to the
lowest. A category that a dialect does not know is one that no rule of the
dialect leads to.
-/

namespace ImportAtlas.Grammar

open Rules

def ruleOf (dialect : Dialect) : Category → Rule
  | .script => script
  | .laterStatements => laterStatements
  | .exportStatement => exportStatement dialect
  | .namespaceExport => namespaceExport
  | .exportClause => exportClause
  | .exportSpecifier => exportSpecifier dialect
  | .exportName => exportName
  | .declaration => declaration dialect
  | .importWord => Rule.word "import"
  | .importStatement => importStatement dialect
  | .importClause => importClause dialect
  | .fromClause => fromClause
  | .namespaceImport => namespaceImport
  | .namedImports => namedImports
  | .importSpecifier => importSpecifier dialect
  | .importAttribute => importAttribute
  | .statement => statement
  | .expressionStatement => expressionStatement
  | .variableDeclaration => variableDeclaration
  | .lexicalDeclaration => lexicalDeclaration
  | .variableDeclarator => variableDeclarator dialect
  | .statementBlock => statementBlock
  | .elseClause => elseClause
  | .ifStatement => ifStatement
  | .switchStatement => switchStatement
  | .forStatement => forStatement
  | .forInStatement => forInStatement
  | .forHeader => forHeader dialect
  | .whileStatement => whileStatement
  | .doStatement => doStatement
  | .tryStatement => tryStatement
  | .withStatement => withStatement
  | .breakStatement => breakStatement
  | .continueStatement => continueStatement
  | .debuggerStatement => debuggerStatement
  | .returnStatement => returnStatement
  | .throwStatement => throwStatement
  | .emptyStatement => emptyStatement
  | .labeledStatement => labeledStatement dialect
  | .switchBody => switchBody
  | .switchCase => switchCase
  | .switchDefault => switchDefault
  | .catchClause => catchClause dialect
  | .finallyClause => finallyClause
  | .parenthesizedExpression => parenthesizedExpression dialect
  | .expression => expression dialect
  | .primaryExpression => primaryExpression dialect
  | .yieldExpression => yieldExpression
  | .object => object dialect
  | .objectPattern => objectPattern dialect
  | .assignmentPattern => assignmentPattern
  | .objectAssignmentPattern => objectAssignmentPattern dialect
  | .array => array
  | .arrayPattern => arrayPattern
  | .markupElement => markupElement
  | .markupExpression => markupExpression
  | .openingTag => openingTag dialect
  | .dottedName => dottedName
  | .markupQualifiedName => markupQualifiedName
  | .closingTag => closingTag
  | .selfClosedElement => selfClosedElement dialect
  | .markupAttribute => markupAttribute
  | .markupString => markupString
  | .classExpression => classExpression dialect
  | .classDeclaration => classDeclaration dialect
  | .classHeritage => classHeritage dialect
  | .functionExpression => functionExpression false dialect
  | .functionDeclaration => functionDeclaration false dialect
  | .generatorFunction => functionExpression true dialect
  | .generatorFunctionDeclaration => functionDeclaration true dialect
  | .arrowFunction => arrowFunction dialect
  | .signature => signature
  | .parameter => parameter
  | .callExpression => callExpression dialect
  | .newExpression => newExpression dialect
  | .awaitExpression => awaitExpression
  | .memberExpression => memberExpression
  | .subscriptExpression => subscriptExpression
  | .assignmentExpression => assignmentExpression dialect
  | .compoundTarget => compoundTarget dialect
  | .compoundAssignment => compoundAssignment
  | .initializer => initializer
  | .destructuringPattern => destructuringPattern
  | .spreadElement => spreadElement
  | .conditionalExpression => conditionalExpression
  | .binaryExpression => binaryExpression
  | .unaryExpression => unaryExpression
  | .updateExpression => updateExpression
  | .sequenceExpression => sequenceExpression
  | .string => string
  | .templateString => templateString
  | .templateSubstitution => templateSubstitution
  | .regex => regex
  | .metaProperty => metaProperty
  | .arguments => arguments
  | .decorator => decorator dialect
  | .decoratorMember => decoratorMember
  | .decoratorCall => decoratorCall dialect
  | .classBody => classBody dialect
  | .fieldDefinition => fieldDefinition
  | .formalParameters => formalParameters dialect
  | .classStaticBlock => classStaticBlock
  | .pattern => pattern dialect
  | .restPattern => restPattern dialect
  | .methodDefinition => methodDefinition dialect
  | .pair => pair
  | .pairPattern => pairPattern
  | .propertyKey => propertyKey dialect
  | .computedPropertyName => computedPropertyName
  | .typedFieldDefinition => typedFieldDefinition
  | .importName => importName
  | .nonNullExpression => nonNullExpression
  | .methodSignature => methodSignature
  | .abstractMethodSignature => abstractMethodSignature
  | .functionSignature => functionSignature
  | .decoratorParenthesized => decoratorParenthesized
  | .typeAssertion => typeAssertion
  | .asExpression => asExpression
  | .satisfiesExpression => satisfiesExpression
  | .instantiationExpression => instantiationExpression
  | .importRequire => importRequire
  | .extendsClause => extendsClause
  | .superclass => superclass
  | .implementsClause => implementsClause
  | .ambientDeclaration => ambientDeclaration
  | .abstractClassDeclaration => abstractClassDeclaration dialect
  | .moduleDeclaration => moduleDeclaration
  | .internalModule => internalModule
  | .moduleTail => moduleTail
  | .importAlias => importAlias
  | .dottedTypeName => dottedTypeName
  | .interfaceDeclaration => interfaceDeclaration
  | .extendsTypeClause => extendsTypeClause
  | .enumDeclaration => enumDeclaration
  | .enumBody => enumBody
  | .enumAssignment => enumAssignment
  | .typeAliasDeclaration => typeAliasDeclaration
  | .accessibilityModifier => accessibilityModifier
  | .overrideModifier => overrideModifier
  | .requiredParameter => requiredParameter
  | .optionalParameter => optionalParameter
  | .parameterName => parameterName
  | .omittingAscription => omittingAscription
  | .addingAscription => addingAscription
  | .optingAscription => optingAscription
  | .typeAscription => typeAscription
  | .importedMember => importedMember
  | .importedCall => importedCall
  | .assertion => assertion
  | .assertionAscription => assertionAscription
  | .type => type
  | .tupleParameter => tupleParameter
  | .optionalTupleParameter => optionalTupleParameter
  | .optionalType => optionalType
  | .restType => restType
  | .tupleMember => tupleMember
  | .constructorType => constructorType
  | .primaryType => primaryType
  | .templateType => templateType
  | .templateLiteralType => templateLiteralType
  | .inferType => inferType
  | .conditionalType => conditionalType
  | .genericType => genericType
  | .typePredicate => typePredicate
  | .typePredicateAscription => typePredicateAscription
  | .queriedMember => queriedMember
  | .queriedSubscript => queriedSubscript
  | .queriedCall => queriedCall
  | .queriedInstantiation => queriedInstantiation
  | .typeQuery => typeQuery
  | .indexTypeQuery => indexTypeQuery
  | .lookupType => lookupType
  | .mappedTypeClause => mappedTypeClause
  | .literalType => literalType
  | .signedNumber => signedNumber
  | .existentialType => existentialType
  | .maybeType => maybeType
  | .parenthesizedType => parenthesizedType
  | .predefinedType => predefinedType
  | .typeArguments => typeArguments
  | .objectType => objectType
  | .callSignature => callSignature
  | .propertySignature => propertySignature
  | .typeParameters => typeParameters
  | .typeParameter => typeParameter
  | .defaultType => defaultType
  | .constraint => constraint
  | .constructSignature => constructSignature
  | .indexSignature => indexSignature dialect
  | .arrayType => arrayType
  | .tupleType => tupleType
  | .readonlyType => readonlyType
  | .unionType => unionType
  | .intersectionType => intersectionType
  | .functionType => functionType

open RankEntry

def commonRanks : List (List RankEntry) :=
  [[named .member, named .templateCall, named .call, category .updateExpression,
      named .unary, named .power, named .product, named .sum, named .shift,
      named .relation, named .equality, named .bitwiseAnd, named .bitwiseXor,
      named .bitwiseOr, named .logicalAnd, named .logicalOr, named .conditional,
      category .sequenceExpression, category .arrowFunction],
    [named .assignment, category .primaryExpression],
    [named .member, named .templateCall, named .creation, named .call,
      category .expression],
    [named .declaration, named .literal],
    [category .primaryExpression, category .statementBlock, named .object],
    [category .metaProperty, category .importWord],
    [category .importStatement, category .importWord],
    [category .exportStatement, category .primaryExpression],
    [category .lexicalDeclaration, category .primaryExpression]]

def typedRanks : List (List RankEntry) :=
  [[named .call, named .instantiation, named .typedUnary, named .typedBinary,
      category .awaitExpression, category .arrowFunction],
    [named .extension, named .instantiation],
    [category .intersectionType, category .unionType, category .conditionalType,
      category .functionType, named .typedBinary, category .typePredicate,
      category .readonlyType],
    [category .mappedTypeClause, category .primaryExpression],
    [category .accessibilityModifier, category .primaryExpression],
    [named .unary, category .expression],
    [category .extendsClause, category .primaryExpression],
    [named .typedUnary, named .assignment],
    [named .declaration, category .expression],
    [category .predefinedType, category .unaryExpression],
    [category .type, category .maybeType],
    [category .tupleType, category .arrayType, category .pattern,
      category .type],
    [category .readonlyType, category .pattern],
    [category .readonlyType, category .primaryExpression],
    [category .typeQuery, category .subscriptExpression, category .expression],
    [category .typeQuery, category .queriedSubscript],
    [category .dottedTypeName, category .genericType, category .primaryType,
      category .lookupType, category .indexTypeQuery, category .type],
    [category .asExpression, category .satisfiesExpression,
      category .primaryType],
    [category .queriedMember, category .memberExpression],
    [category .memberExpression, category .importedMember],
    [category .queriedMember, category .primaryExpression],
    [category .queriedSubscript, category .subscriptExpression],
    [category .queriedSubscript, category .primaryExpression],
    [category .queriedCall, category .primaryExpression],
    [category .queriedInstantiation, category .primaryExpression],
    [category .typeQuery, category .primaryExpression],
    [category .overrideModifier, category .primaryExpression],
    [category .decoratorCall, category .decorator],
    [category .literalType, category .pattern],
    [category .predefinedType, category .pattern],
    [category .callExpression, category .queriedCall],
    [category .callExpression, category .importedCall],
    [category .newExpression, category .primaryExpression],
    [category .metaProperty, category .primaryExpression],
    [category .constructSignature, category .propertyKey]]

def ranksOf (dialect : Dialect) : List (List RankEntry) :=
  commonRanks ++ if dialect.isTyped then typedRanks else []

end ImportAtlas.Grammar
