import ImportAtlas.Grammar.Rule

/-!
# Rules that many constructs share

Names, ends of statements, and the parts that only the typed dialects have.
-/

namespace ImportAtlas.Grammar.Rules

open Rule

def whenTyped (dialect : Dialect) (rules : List Rule) : List Rule :=
  if dialect.isTyped then rules else []

def identifier : Rule := .shown .identifier (shape .identifier)

def plainName : Rule := .shown .other (shape .identifier)

def privateName : Rule := .shown .other (shape .privateName)

def number : Rule := .shown .other (shape .number)

def thisWord : Rule := .shown .other (word "this")

def undefinedWord : Rule := .shown .other (word "undefined")

def constantWord : Rule := .shown .other (words ["true", "false", "null"])

def importWord : Rule := .part .importWord

/-- A semicolon, written or not. -/
def semicolon : Rule := choice [shape .statementEnd, mark ";"]

def unwrittenEnd : Rule := maybe (shape .statementEnd)

def contextualWord (dialect : Dialect) : Rule :=
  words (["get", "set", "async", "static", "export", "let"] ++
    if dialect.isTyped then
      ["declare", "namespace", "type", "public", "private", "protected",
        "override", "readonly", "module", "any", "number", "boolean", "string",
        "symbol", "object", "new"]
    else [])

def anyName (dialect : Dialect) : Rule :=
  choice [shape .identifier, contextualWord dialect]

def expressions : Rule := parts [.expression, .sequenceExpression]

def optionalAscription (dialect : Dialect) : List Rule :=
  whenTyped dialect [maybe (.part .typeAscription)]

def memberName : Rule := choice [privateName, plainName]

end ImportAtlas.Grammar.Rules
