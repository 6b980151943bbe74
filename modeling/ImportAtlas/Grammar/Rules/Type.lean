import ImportAtlas.Grammar.Rules.Definition

/-!
# Types
-/

namespace ImportAtlas.Grammar.Rules

open Rule

/-! ## Expressions with types -/

def nonNullExpression : Rule :=
  leftmost .typedUnary (seq [.part .expression, mark "!"])

def typeAssertion : Rule :=
  leftmost .typedUnary (seq [.part .typeArguments, .part .expression])

def asExpression : Rule :=
  leftmost .typedBinary
    (seq [.part .expression, word "as", choice [word "const", .part .type]])

def satisfiesExpression : Rule :=
  leftmost .typedBinary (seq [.part .expression, word "satisfies", .part .type])

def instantiationExpression : Rule :=
  withRank .instantiation (seq [.part .expression, .part .typeArguments])

/-! ## Declarations of types -/

def interfaceDeclaration : Rule :=
  seq [word "interface", .label .name plainName, maybe (.part .typeParameters),
    maybe (.part .extendsTypeClause), .part .objectType]

def extendsTypeClause : Rule :=
  seq [word "extends",
    commas (choice [plainName, .part .dottedTypeName, .part .genericType])]

def typeAliasDeclaration : Rule :=
  seq [word "type", .label .name plainName, maybe (.part .typeParameters),
    mark "=", .label .value (.part .type), semicolon]

/-! ## Ascriptions -/

def importedType : Rule :=
  choice [
    .shown .memberExpression (.part .importedMember),
    .shown .callExpression (.part .importedCall)]

def typeAscription : Rule := seq [mark ":", choice [.part .type, importedType]]

def importedMember : Rule :=
  seq [choice [importWord, importedType], mark ".", .label .property memberName]

def importedCall : Rule :=
  seq [.label .head
    (choice [importWord, .shown .memberExpression (.part .importedMember)]),
    .label .arguments (.part .arguments)]

def omittingAscription : Rule := seq [mark "-?:", .part .type]

def addingAscription : Rule := seq [mark "+?:", .part .type]

def optingAscription : Rule := seq [mark "?:", .part .type]

def assertion : Rule :=
  seq [word "asserts", choice [.part .typePredicate, identifier, thisWord]]

def assertionAscription : Rule := seq [mark ":", .part .assertion]

def typePredicate : Rule :=
  seq [
    .label .name
    (choice [identifier, thisWord, .shown .identifier (.part .predefinedType)]),
    word "is", .part .type]

def typePredicateAscription : Rule := seq [mark ":", .part .typePredicate]

/-! ## Types -/

def type : Rule :=
  choice [
    parts [.primaryType, .functionType, .readonlyType, .constructorType,
      .inferType],
    .ranked (.level (-1)) none
      (.shown .memberExpression (.part .importedMember)),
    .ranked (.level (-1)) none (.shown .callExpression (.part .importedCall))]

def primaryType : Rule :=
  choice [
    parts [.parenthesizedType, .predefinedType],
    plainName,
    parts [.dottedTypeName, .genericType, .objectType, .arrayType, .tupleType,
      .maybeType, .typeQuery, .indexTypeQuery],
    thisWord,
    parts [.existentialType, .literalType, .lookupType, .conditionalType,
      .templateLiteralType, .intersectionType, .unionType],
    word "const"]

def dottedTypeName : Rule :=
  withRank .member (seq [choice [identifier, .part .dottedName], mark ".",
    .label .name plainName])

def genericType : Rule :=
  withRank .call
    (seq [.label .name (choice [plainName, .part .dottedTypeName]),
      .part .typeArguments])

def predefinedType : Rule :=
  choice [
    words ["any", "number", "boolean", "string", "symbol"],
    seq [word "unique", word "symbol"],
    words ["void", "unknown", "never", "object"]]

def literalType : Rule :=
  choice [.shown .other (.part .signedNumber), number, .part .string,
    constantWord, undefinedWord]

def signedNumber : Rule :=
  .ranked (.level 1) (some .left) (seq [marks ["-", "+"], number])

def existentialType : Rule := mark "*"

def maybeType : Rule := late (seq [mark "?", .part .primaryType])

def parenthesizedType : Rule := enclosed (.part .type)

def arrayType : Rule := seq [.part .primaryType, mark "[", mark "]"]

def lookupType : Rule := seq [.part .primaryType, bracketed (.part .type)]

def indexTypeQuery : Rule := seq [word "keyof", .part .primaryType]

def readonlyType : Rule := seq [word "readonly", .part .type]

def unionType : Rule := early (seq [maybe (.part .type), mark "|", .part .type])

def intersectionType : Rule :=
  early (seq [maybe (.part .type), mark "&", .part .type])

def conditionalType : Rule :=
  late (seq [.part .type, word "extends", .part .type, mark "?", .part .type,
    mark ":", .part .type])

def inferType : Rule :=
  late
    (seq [word "infer", plainName, maybe (seq [word "extends", .part .type])])

def templateLiteralType : Rule :=
  seq [mark "\x60", zeroOrMore
    (choice [.shown .other (shape .templateText), .part .templateType]),
    mark "\x60"]

def templateType : Rule :=
  seq [mark "$\x7b", parts [.primaryType, .inferType], closeBrace]

def functionType : Rule :=
  early (seq [maybe (.part .typeParameters), .part .formalParameters, mark "=>",
    parts [.type, .assertion, .typePredicate]])

def constructorType : Rule :=
  early
    (seq [maybe (word "abstract"), word "new", maybe (.part .typeParameters),
    .part .formalParameters, mark "=>", .part .type])

/-! ## Tuples -/

def tupleType : Rule :=
  bracketed (seq [maybe (commas (.part .tupleMember)), maybe (mark ",")])

def tupleMember : Rule :=
  parts [.tupleParameter, .optionalTupleParameter, .optionalType,
    .restType, .type]

def tupleParameter : Rule :=
  seq [.label .name (choice [identifier, .part .restPattern]),
    .part .typeAscription]

def optionalTupleParameter : Rule :=
  seq [.label .name identifier, mark "?", .part .typeAscription]

def optionalType : Rule := seq [.part .type, mark "?"]

def restType : Rule := seq [mark "...", .part .type]

/-! ## The types of values -/

def queriedObject : Rule :=
  choice [
    identifier, thisWord,
    .shown .other (.part .queriedSubscript),
    .shown .memberExpression (.part .queriedMember),
    .shown .callExpression (.part .queriedCall)]

def queriedMember : Rule :=
  seq [queriedObject, marks [".", "?."], .label .property memberName]

def queriedSubscript : Rule :=
  seq [queriedObject, maybe (mark "?."),
    bracketed (choice [.part .predefinedType, .part .string, number])]

def queriedFunction : Rule :=
  choice [
    importWord, identifier,
    .shown .memberExpression (.part .queriedMember),
    .shown .other (.part .queriedSubscript)]

def queriedCall : Rule :=
  seq [.label .head queriedFunction, .label .arguments (.part .arguments)]

def queriedInstantiation : Rule :=
  seq [.label .head queriedFunction, .part .typeArguments]

def typeQuery : Rule :=
  late (seq [word "typeof",
    choice [
      .shown .other (.part .queriedSubscript),
      .shown .memberExpression (.part .queriedMember),
      .shown .callExpression (.part .queriedCall),
      .shown .other (.part .queriedInstantiation),
      identifier, thisWord]])

/-! ## Type parameters and arguments -/

def typeArguments : Rule :=
  seq [mark "<", commas (.part .type), maybe (mark ","), mark ">"]

def typeParameters : Rule :=
  seq [mark "<", commas (.part .typeParameter), maybe (mark ","), mark ">"]

def typeParameter : Rule :=
  seq [maybe (word "const"), .label .name plainName, maybe (.part .constraint),
    .label .value (maybe (.part .defaultType))]

def defaultType : Rule := seq [mark "=", .part .type]

def constraint : Rule := seq [choice [word "extends", mark ":"], .part .type]

/-! ## The types of objects -/

def objectType : Rule :=
  let stop := choice [mark ",", semicolon]
  seq [marks ["\x7b", "\x7b|"],
    maybe (seq [
      maybe (marks [",", ";"]),
      separated stop
        (parts [.exportStatement, .propertySignature, .callSignature,
          .constructSignature, .indexSignature, .methodSignature]),
      maybe stop]),
    marks ["\x7d", "|\x7d"]]

def callSignature : Rule := .part .signature

def propertySignature : Rule :=
  seq [maybe (.part .accessibilityModifier), maybe (word "static"),
    maybe (.part .overrideModifier), maybe (word "readonly"),
    .label .name (.part .propertyKey), maybe (mark "?"),
    maybe (.part .typeAscription)]

def constructSignature : Rule :=
  seq [maybe (word "abstract"), word "new", maybe (.part .typeParameters),
    .part .formalParameters, maybe (.part .typeAscription)]

def indexSignature (dialect : Dialect) : Rule :=
  seq [
    maybe (seq [maybe (marks ["-", "+"]), word "readonly"]),
    bracketed (choice [
      seq [.label .name (.shown .identifier (anyName dialect)), mark ":",
        .part .type],
      .part .mappedTypeClause]),
    parts [.typeAscription, .omittingAscription, .addingAscription,
      .optingAscription]]

def mappedTypeClause : Rule :=
  seq [.label .name plainName, word "in", .part .type,
    maybe (seq [word "as", .label .newName (.part .type)])]

end ImportAtlas.Grammar.Rules
