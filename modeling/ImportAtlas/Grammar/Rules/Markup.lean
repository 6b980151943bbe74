import ImportAtlas.Grammar.Rules.Shared

/-!
# Markup inside scripts
-/

namespace ImportAtlas.Grammar.Rules

open Rule

def markupName : Rule :=
  choice [.shown .identifier (shape .markupName), identifier]

def anyElement : Rule := parts [.markupElement, .selfClosedElement]

def markupElement : Rule :=
  seq [.part .openingTag,
    zeroOrMore (choice [
      .shown .other (choice [shape .markupText, shape .characterReference]),
      anyElement,
      .part .markupExpression]),
    .part .closingTag]

def markupExpression : Rule :=
  braced (maybe (parts [.expression, .sequenceExpression, .spreadElement]))

def markupQualifiedName : Rule := seq [markupName, mark ":", markupName]

def dottedElementName : Rule := .shown .memberExpression (.part .dottedName)

def elementName : Rule :=
  choice [markupName, dottedElementName, .part .markupQualifiedName]

def attributes : Rule :=
  zeroOrMore (parts [.markupAttribute, .markupExpression])

def tagName (dialect : Dialect) : Rule :=
  if dialect.isTyped then
    choice [
      .label .name (choice [markupName, .part .markupQualifiedName]),
      seq [.label .name (choice [identifier, dottedElementName]),
        maybe (.part .typeArguments)]]
  else .label .name elementName

def tagStart (dialect : Dialect) : Rule :=
  seq [mark "<", maybe (seq [tagName dialect, attributes])]

def openingTag (dialect : Dialect) : Rule :=
  .weighted (-1) (seq [tagStart dialect, mark ">"])

def closingTag : Rule :=
  seq [mark "</", maybe (.label .name elementName), mark ">"]

def selfClosedElement (dialect : Dialect) : Rule :=
  if dialect.isTyped then .weighted (-1) (seq [tagStart dialect, mark "/>"])
  else seq [mark "<", tagName dialect, attributes, mark "/>"]

def markupAttribute : Rule :=
  seq [choice [.shown .other (choice [shape .markupName, shape .identifier]),
    .part .markupQualifiedName], maybe (seq [mark "=",
      choice [.shown .string (.part .markupString), .part .markupExpression,
        anyElement]])]

def markupString : Rule :=
  let quoted := fun (quote : String) (text : Shape) =>
    seq [mark quote,
      zeroOrMore (.shown .other
        (choice [shape text, shape .characterReference])), mark quote]
  choice [quoted "\"" .doubleQuotedValue, quoted "'" .singleQuotedValue]

end ImportAtlas.Grammar.Rules
