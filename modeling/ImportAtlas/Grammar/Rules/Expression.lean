import ImportAtlas.Grammar.Rules.Statement

/-!
# Expressions and patterns
-/

namespace ImportAtlas.Grammar.Rules

open Rule

def parenthesizedExpression (dialect : Dialect) : Rule :=
  enclosed (choice [seq ([.part .expression] ++ optionalAscription dialect),
    .part .sequenceExpression])

def expression (dialect : Dialect) : Rule :=
  choice ([
    parts [.primaryExpression, .assignmentExpression, .compoundAssignment,
      .awaitExpression, .unaryExpression, .binaryExpression,
      .conditionalExpression, .updateExpression, .newExpression,
      .yieldExpression]] ++
    (if dialect.hasMarkup then [parts [.markupElement, .selfClosedElement]]
      else [.part .typeAssertion]) ++
    whenTyped dialect [
      parts [.asExpression, .satisfiesExpression, .instantiationExpression,
        .internalModule]])

def primaryExpression (dialect : Dialect) : Rule :=
  choice ([
    parts [.subscriptExpression, .memberExpression, .parenthesizedExpression],
    undefinedWord, identifier, .shown .identifier (contextualWord dialect),
    thisWord, .shown .other (word "super"), number, constantWord,
    parts [.string, .templateString, .regex, .object, .array,
      .functionExpression, .arrowFunction, .generatorFunction, .classExpression,
      .metaProperty, .callExpression]] ++
    whenTyped dialect [.part .nonNullExpression])

/-! ## Targets of assignments -/

def target (dialect : Dialect) : Rule :=
  choice ([
    parts [.memberExpression, .subscriptExpression], undefinedWord, identifier,
    .shown .identifier (contextualWord dialect), .part .destructuringPattern] ++
    whenTyped dialect [.part .nonNullExpression])

def assignmentExpression (dialect : Dialect) : Rule :=
  rightmost .assignment
    (seq (whenTyped dialect [maybe (word "using")] ++ [
      choice [.part .parenthesizedExpression, target dialect], mark "=",
      .part .expression]))

def compoundTarget (dialect : Dialect) : Rule :=
  choice ([
    parts [.memberExpression, .subscriptExpression],
    .shown .identifier (contextualWord dialect),
    identifier, .part .parenthesizedExpression] ++
    whenTyped dialect [.part .nonNullExpression])

def compoundAssignment : Rule :=
  rightmost .assignment
    (seq [.part .compoundTarget,
      marks ["+=", "-=", "*=", "/=", "%=", "^=", "&=", "|=", ">>=", ">>>=",
        "<<=", "**=", "&&=", "||=", "??="],
      .part .expression])

def forHeader (dialect : Dialect) : Rule :=
  enclosed (seq [
    choice [
      target dialect,
      .part .parenthesizedExpression,
      seq [word "var", boundTarget, maybe (.part .initializer)],
      seq [words ["let", "const"], boundTarget, unwrittenEnd]],
    words ["in", "of"],
    expressions])

/-! ## Patterns -/

def pattern (dialect : Dialect) : Rule :=
  .weighted (-1) (choice [target dialect, .part .restPattern])

def restPattern (dialect : Dialect) : Rule :=
  late (seq [mark "...", target dialect])

def destructuringPattern : Rule := parts [.objectPattern, .arrayPattern]

def assignmentPattern : Rule :=
  seq [.part .pattern, mark "=", .part .expression]

def objectPattern (dialect : Dialect) : Rule :=
  withRank .object (braced (maybe (commas (maybe (choice [
    parts [.pairPattern, .restPattern, .objectAssignmentPattern],
    .shown .shorthandPattern (anyName dialect)])))))

def objectAssignmentPattern (dialect : Dialect) : Rule :=
  seq [choice [.shown .shorthandPattern (anyName dialect),
    .part .destructuringPattern], mark "=", .part .expression]

def pairPattern : Rule :=
  seq [.label .key (.part .propertyKey), mark ":",
    .label .value (parts [.pattern, .assignmentPattern])]

def arrayPattern : Rule :=
  bracketed (maybe (commas (maybe (parts [.pattern, .assignmentPattern]))))

/-! ## Objects and arrays -/

def object (dialect : Dialect) : Rule :=
  withRank .object (braced (maybe (commas (maybe (choice [
    parts [.pair, .spreadElement, .methodDefinition],
    .shown .other (anyName dialect)])))))

def pair : Rule :=
  seq [.label .key (.part .propertyKey), mark ":",
    .label .value (.part .expression)]

def propertyKey (dialect : Dialect) : Rule :=
  choice [.shown .other (anyName dialect), privateName, .part .string, number,
    .part .computedPropertyName]

def computedPropertyName : Rule := bracketed (.part .expression)

def array : Rule :=
  bracketed (maybe (commas (maybe (parts [.expression, .spreadElement]))))

def spreadElement : Rule := seq [mark "...", .part .expression]

/-! ## Members and calls -/

def memberExpression : Rule :=
  withRank .member
    (seq [choice [parts [.expression, .primaryExpression], importWord],
      marks [".", "?."], .label .property memberName])

def subscriptExpression : Rule :=
  rightmost .member
    (seq [parts [.expression, .primaryExpression], maybe (mark "?."),
      bracketed expressions])

def optionalTypeArguments (dialect : Dialect) : List Rule :=
  whenTyped dialect [maybe (.part .typeArguments)]

def callExpression (dialect : Dialect) : Rule :=
  choice [
    withRank .call
      (seq ([.label .head (choice [.part .expression, importWord])] ++
        optionalTypeArguments dialect ++
        [.label .arguments (.part .arguments)])),
    withRank .templateCall
      (seq [.label .head (parts [.primaryExpression, .newExpression]),
        .label .arguments (.part .templateString)]),
    withRank .member
      (seq ([.label .head (.part .primaryExpression), mark "?."] ++
        optionalTypeArguments dialect ++
        [.label .arguments (.part .arguments)]))]

def arguments : Rule :=
  enclosed (maybe (commas (maybe (parts [.expression, .spreadElement]))))

def newExpression (dialect : Dialect) : Rule :=
  rightmost .creation
    (if dialect.isTyped then
      seq [word "new", .part .primaryExpression, maybe (.part .typeArguments),
        .label .arguments (maybe (.part .arguments))]
    else
      seq [word "new", parts [.primaryExpression, .newExpression],
        .label .arguments (maybe (.weighted 1 (.part .arguments)))])

def metaProperty : Rule :=
  choice [seq [word "new", mark ".", word "target"],
    seq [word "import", mark ".", word "meta"]]

def dottedName : Rule :=
  withRank .member
    (seq [choice [identifier, .shown .memberExpression (.part .dottedName)],
      mark ".", .label .property plainName])

/-! ## Operators -/

def binaryOperators : List (String × RankName × Side) :=
  [("&&", .logicalAnd, .left), ("||", .logicalOr, .left), (">>", .shift, .left),
    (">>>", .shift, .left), ("<<", .shift, .left), ("&", .bitwiseAnd, .left),
    ("^", .bitwiseXor, .left), ("|", .bitwiseOr, .left), ("+", .sum, .left),
    ("-", .sum, .left), ("*", .product, .left), ("/", .product, .left),
    ("%", .product, .left), ("**", .power, .right), ("<", .relation, .left),
    ("<=", .relation, .left), ("==", .equality, .left),
    ("===", .equality, .left), ("!=", .equality, .left),
    ("!==", .equality, .left), (">=", .relation, .left),
    (">", .relation, .left), ("??", .conditional, .left)]

def binaryExpression : Rule :=
  choice (binaryOperators.map (fun (text, rank, side) =>
      .ranked (.named rank) (some side)
        (seq [.part .expression, mark text, .part .expression])) ++ [
    leftmost .relation
      (seq [.part .expression, word "instanceof", .part .expression]),
    leftmost .relation
      (seq [choice [.part .expression, privateName], word "in",
        .part .expression])])

def unaryExpression : Rule :=
  leftmost .unary
    (seq [choice [marks ["!", "~", "-", "+"],
      words ["typeof", "void", "delete"]], .part .expression])

def updateExpression : Rule :=
  early (choice [
    seq [.part .expression, marks ["++", "--"]],
    seq [marks ["++", "--"], .part .expression]])

def awaitExpression : Rule :=
  withRank .unary (seq [word "await", .part .expression])

def yieldExpression : Rule :=
  late (seq [word "yield", choice [seq [mark "*", .part .expression],
    maybe (.part .expression)]])

def conditionalExpression : Rule :=
  rightmost .conditional
    (seq [.part .expression, shape .conditionMark, .part .expression, mark ":",
      .part .expression])

def sequenceExpression : Rule := late (commas (.part .expression))

/-! ## Literals -/

def string : Rule :=
  let quoted := fun (quote : String) (text : Shape) =>
    seq [mark quote, zeroOrMore (choice [shape text, shape .escape]),
      mark quote]
  choice [quoted "\"" .doubleQuotedText, quoted "'" .singleQuotedText]

def templateString : Rule :=
  seq [mark "\x60",
    zeroOrMore (choice [
      .shown .other (choice [shape .templateText, shape .escape]),
      .part .templateSubstitution]),
    mark "\x60"]

def templateSubstitution : Rule := seq [mark "$\x7b", expressions, closeBrace]

def regex : Rule :=
  seq [mark "/", .shown .other (shape .regexBody), shape .regexEnd,
    maybe (.shown .other (shape .regexFlags))]

end ImportAtlas.Grammar.Rules
