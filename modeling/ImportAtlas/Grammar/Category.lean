import ImportAtlas.Grammar.SourceTree

/-!
# Categories

The constructs of the script languages. Some constructs only group others; they
are hidden, which means that their parts count as parts of the construct around
them. The order of the categories breaks ties between two readings of one text.
-/

namespace ImportAtlas.Grammar

inductive Category where
  | script
  | laterStatements
  | exportStatement
  | namespaceExport
  | exportClause
  | exportSpecifier
  | exportName
  | declaration
  | importWord
  | importStatement
  | importClause
  | fromClause
  | namespaceImport
  | namedImports
  | importSpecifier
  | importAttribute
  | statement
  | expressionStatement
  | variableDeclaration
  | lexicalDeclaration
  | variableDeclarator
  | statementBlock
  | elseClause
  | ifStatement
  | switchStatement
  | forStatement
  | forInStatement
  | forHeader
  | whileStatement
  | doStatement
  | tryStatement
  | withStatement
  | breakStatement
  | continueStatement
  | debuggerStatement
  | returnStatement
  | throwStatement
  | emptyStatement
  | labeledStatement
  | switchBody
  | switchCase
  | switchDefault
  | catchClause
  | finallyClause
  | parenthesizedExpression
  | expression
  | primaryExpression
  | yieldExpression
  | object
  | objectPattern
  | assignmentPattern
  | objectAssignmentPattern
  | array
  | arrayPattern
  | markupElement
  | markupExpression
  | openingTag
  | dottedName
  | markupQualifiedName
  | closingTag
  | selfClosedElement
  | markupAttribute
  | markupString
  | classExpression
  | classDeclaration
  | classHeritage
  | functionExpression
  | functionDeclaration
  | generatorFunction
  | generatorFunctionDeclaration
  | arrowFunction
  | signature
  | parameter
  | callExpression
  | newExpression
  | awaitExpression
  | memberExpression
  | subscriptExpression
  | assignmentExpression
  | compoundTarget
  | compoundAssignment
  | initializer
  | destructuringPattern
  | spreadElement
  | conditionalExpression
  | binaryExpression
  | unaryExpression
  | updateExpression
  | sequenceExpression
  | string
  | templateString
  | templateSubstitution
  | regex
  | metaProperty
  | arguments
  | decorator
  | decoratorMember
  | decoratorCall
  | classBody
  | fieldDefinition
  | formalParameters
  | classStaticBlock
  | pattern
  | restPattern
  | methodDefinition
  | pair
  | pairPattern
  | propertyKey
  | computedPropertyName
  | typedFieldDefinition
  | importName
  | nonNullExpression
  | methodSignature
  | abstractMethodSignature
  | functionSignature
  | decoratorParenthesized
  | typeAssertion
  | asExpression
  | satisfiesExpression
  | instantiationExpression
  | importRequire
  | extendsClause
  | superclass
  | implementsClause
  | ambientDeclaration
  | abstractClassDeclaration
  | moduleDeclaration
  | internalModule
  | moduleTail
  | importAlias
  | dottedTypeName
  | interfaceDeclaration
  | extendsTypeClause
  | enumDeclaration
  | enumBody
  | enumAssignment
  | typeAliasDeclaration
  | accessibilityModifier
  | overrideModifier
  | requiredParameter
  | optionalParameter
  | parameterName
  | omittingAscription
  | addingAscription
  | optingAscription
  | typeAscription
  | importedMember
  | importedCall
  | assertion
  | assertionAscription
  | type
  | tupleParameter
  | optionalTupleParameter
  | optionalType
  | restType
  | tupleMember
  | constructorType
  | primaryType
  | templateType
  | templateLiteralType
  | inferType
  | conditionalType
  | genericType
  | typePredicate
  | typePredicateAscription
  | queriedMember
  | queriedSubscript
  | queriedCall
  | queriedInstantiation
  | typeQuery
  | indexTypeQuery
  | lookupType
  | mappedTypeClause
  | literalType
  | signedNumber
  | existentialType
  | maybeType
  | parenthesizedType
  | predefinedType
  | typeArguments
  | objectType
  | callSignature
  | propertySignature
  | typeParameters
  | typeParameter
  | defaultType
  | constraint
  | constructSignature
  | indexSignature
  | arrayType
  | tupleType
  | readonlyType
  | unionType
  | intersectionType
  | functionType
  deriving DecidableEq, Hashable

namespace Category

/-- The kind of the trees of a category; a hidden category has no trees of its
own. -/
def kind? : Category → Option Kind
  | .script | .laterStatements | .exportName | .declaration | .fromClause
  | .statement | .forHeader | .expression | .primaryExpression | .signature
  | .parameter | .compoundTarget | .initializer | .destructuringPattern
  | .markupString | .pattern | .propertyKey | .importName | .superclass
  | .moduleTail | .parameterName | .importedMember | .importedCall | .type
  | .tupleMember | .primaryType | .queriedMember | .queriedSubscript
  | .queriedCall | .queriedInstantiation | .signedNumber => none
  | .exportStatement => some .exportStatement
  | .namespaceExport => some .namespaceExport
  | .exportClause => some .exportClause
  | .importWord => some .importWord
  | .importStatement => some .importStatement
  | .importClause => some .importClause
  | .namespaceImport => some .namespaceImport
  | .namedImports => some .namedImports
  | .importRequire => some .importRequire
  | .expressionStatement => some .expressionStatement
  | .variableDeclaration => some .variableDeclaration
  | .lexicalDeclaration => some .lexicalDeclaration
  | .variableDeclarator => some .variableDeclarator
  | .statementBlock => some .statementBlock
  | .returnStatement => some .returnStatement
  | .parenthesizedExpression => some .parenthesized
  | .objectPattern => some .objectPattern
  | .functionExpression => some .functionExpression
  | .arrowFunction => some .arrowFunction
  | .callExpression => some .callExpression
  | .awaitExpression => some .awaitExpression
  | .memberExpression => some .memberExpression
  | .string => some .string
  | .templateString => some .template
  | .templateSubstitution => some .substitution
  | .arguments => some .arguments
  | .pairPattern => some .pairPattern
  | _ => some .other

def position (category : Category) : Nat :=
  category.ctorIdx

end Category

end ImportAtlas.Grammar
